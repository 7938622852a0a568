import TreeCheck.Check.Rules

/-!
# Checking a program

A program is a tree whose root is a program node. A session can check any number of programs, one
after the other; the names and counters of earlier programs, refused ones included, stay in it.
`analyze` checks one program on its own.
-/

set_option autoImplicit false

namespace TreeCheck

/-- Checks a program and returns its metrics. The variables are counted at the end, from the table,
so the counter changes only when a program is accepted. -/
def Check.program (program : Node) : Check Metrics :=
  match program.label with
  | .program => do
    emit (.checking program.size)
    let _ ← visitEach .plain .any [] program.children
    let symbols := (← current).symbols
    count fun metrics => { metrics with vars := symbols.variableCount }
    let metrics := (← current).metrics
    emit (.wellTyped symbols.size metrics.vars metrics.operators)
    return metrics
  | other => malformed (.root other.kind)

structure Run where
  outcome : Except Fault Metrics
  session : Session
  events : List Event

def Session.check (session : Session) (program : Node) : Run :=
  let (outcome, walk) := Check.program program ⟨session, []⟩
  ⟨outcome, walk.session, walk.log⟩

/-- Checks programs one after the other in one session, going on after a fault. -/
def Session.checkAll (session : Session) : List Node → List Run
  | [] => []
  | program :: rest =>
    let run := session.check program
    run :: run.session.checkAll rest

def analyze (program : Node) : Except Fault Metrics :=
  (Session.check {} program).outcome

end TreeCheck
