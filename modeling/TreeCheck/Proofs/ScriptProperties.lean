import Mathlib.Algebra.GroupWithZero.Nat
import TreeCheck.Node.Build
import TreeCheck.Proofs.Following

/-!
# Counters and declarations of a program

The check of a program follows the script of its items. What this says about the counters of an
accepted program and about the names that any program leaves declared is drawn out here.
-/

set_option autoImplicit false

namespace TreeCheck

/-- Whatever its outcome, the check of a program adds to the table, the counters and the log what an
initial part of the program asks for. -/
theorem Session.check_follows (session : Session) (program : Node) :
    ∃ (growth : Growth) (rest : Script),
      session.symbols.Extends growth.bindings (session.check program).session.symbols ∧
      session.metrics.Increase growth.counts (session.check program).session.metrics ∧
      (session.check program).events.filterMap Event.visited? = growth.script.visited ∧
      growth.script + rest = .ofNodes program.walked ∧
      rest.Leaves (session.check program).outcome
        (session.check program).session.symbols.names := by
  have followed : ∀ items, ∃ growth rest,
      Walk.Grows ⟨session, [.checking (Node.mk .program items).size]⟩ growth
        (session.readItems items).2 ∧
      growth.script + rest = .ofNodes (Node.mk .program items).walked ∧
      rest.Leaves (session.readItems items).1
        (session.readItems items).2.session.symbols.names := fun items =>
    Check.follows_visitEach (fun child _ => Check.follows_visit child) .plain .any [] _
  refine Session.check_cases session program ?_ ?_ ?_
  · intro node _
    refine ⟨0, _, .refl _, Metrics.increase_add _ 0, rfl, zero_add _, fun name same => ?_⟩
    cases same
  · intro items fault reached stopped
    obtain ⟨growth, rest, grows, parts, left⟩ := followed items
    rw [stopped] at grows left
    refine ⟨growth, rest, grows.symbols, grows.increase, ?_, parts, left⟩
    rw [Walk.refuse, grows.log]
    rfl
  · intro items types reached done
    obtain ⟨growth, rest, grows, parts, left⟩ := followed items
    rw [done] at grows left
    refine ⟨growth, rest, grows.symbols, increase_counted grows.increase, ?_, parts, left⟩
    rw [Walk.accept, grows.log, List.filterMap_append]
    exact List.append_nil _

theorem Session.metrics_of_accepted {session : Session} {program : Node} {metrics : Metrics}
    (accepted : (session.check program).outcome = .ok metrics) :
    (session.check program).session.metrics = metrics ∧
      metrics.vars = (session.check program).session.symbols.variableCount := by
  revert accepted
  refine Session.check_cases session program ?_ ?_ ?_
  · intro node _ accepted
    cases accepted
  · intro items fault reached _ accepted
    cases accepted
  · intro items types reached _ accepted
    cases accepted
    exact ⟨rfl, rfl⟩

theorem Node.sum_tally (nodes : List Node) :
    (nodes.map tally).sum =
      { vars := nodes.countP fun node => node.kind = .declaration
        whiles := nodes.countP fun node => node.kind = .whileStmt
        ifs := nodes.countP fun node => node.kind = .ifStmt
        enumValues := (nodes.map valueCount).sum
        operators := (nodes.map operatorCount).sum } := by
  induction nodes with
  | nil => rfl
  | cons node nodes ih =>
      rw [List.map_cons, List.sum_cons, ih]
      ext <;> simp [tally, List.countP_cons, Nat.add_comm]

/-- The counters of an accepted program are those before, increased by what is found in the nodes
that the shape of the program says are walked, and these are the nodes that have been visited. The
variables are those of the table before and one for each declaration. -/
theorem counters_of_accepted {session : Session} {program : Node} {metrics : Metrics}
    (accepted : (session.check program).outcome = .ok metrics) :
    (session.check program).session.metrics = metrics ∧
    (session.check program).events.filterMap Event.visited? =
      program.walked.map (fun node => (node.kind, node.children.length)) ∧
    metrics.whiles = session.metrics.whiles +
      program.walked.countP (fun node => node.kind = .whileStmt) ∧
    metrics.ifs = session.metrics.ifs +
      program.walked.countP (fun node => node.kind = .ifStmt) ∧
    metrics.enumValues = session.metrics.enumValues +
      (program.walked.map Node.valueCount).sum ∧
    metrics.operators = session.metrics.operators +
      (program.walked.map Node.operatorCount).sum ∧
    metrics.vars = session.symbols.variableCount +
      program.walked.countP (fun node => node.kind = .declaration) ∧
    (session = {} → metrics.vars =
      program.walked.countP (fun node => node.kind = .declaration)) := by
  obtain ⟨growth, rest, extended, increase, visited, parts, left⟩ :=
    session.check_follows program
  obtain ⟨same, counts⟩ := Session.metrics_of_accepted accepted
  rw [accepted] at left
  cases left
  rw [add_zero] at parts
  have tally : growth.script.counts = (program.walked.map Node.tally).sum := by
    rw [parts, Script.ofNodes_counts]
  rw [Node.sum_tally] at tally
  rw [same] at increase
  have vars : metrics.vars = session.symbols.variableCount +
      program.walked.countP (fun node => node.kind = .declaration) := by
    rw [counts, extended.variableCount_eq]
    exact congrArg (session.symbols.variableCount + ·) (congrArg Metrics.vars tally)
  refine ⟨same, ?_, ?_, ?_, ?_, ?_, vars, ?_⟩
  · rw [visited, parts, Script.ofNodes_visited]
  · rw [increase.whiles]
    exact congrArg (session.metrics.whiles + ·) (congrArg Metrics.whiles tally)
  · rw [increase.ifs]
    exact congrArg (session.metrics.ifs + ·) (congrArg Metrics.ifs tally)
  · rw [increase.enumValues]
    exact congrArg (session.metrics.enumValues + ·) (congrArg Metrics.enumValues tally)
  · rw [increase.operators]
    exact congrArg (session.metrics.operators + ·) (congrArg Metrics.operators tally)
  · rintro rfl
    rw [vars]
    exact Nat.zero_add _

/-- An enumeration, a variable and a loop `while (steps + 1 > 0) steps = -steps;`. -/
def Node.countdown : Node :=
  .program [.enumStmt "light" ["red", "green"], .declaration "num" "steps",
    .stmt (.whileStmt (.expr (.compare .greater (.add [.var "steps", .int 1]) (.int 0)))
      [.block [.stmt (.assign "steps" (.expr (.negate (.var "steps"))))]])]

/-- A session that has a variable and has seen four loops. -/
def Session.afterLoops : Session where
  symbols := ⟨[("rounds", .number)], by decide⟩
  metrics := { whiles := 4 }

theorem counters_of_countdown :
    (Session.afterLoops.check .countdown).outcome =
      .ok { vars := 2, whiles := 5, enumValues := 2, operators := 3 } ∧
    5 = 4 + Node.countdown.walked.countP (fun node => node.kind = .whileStmt) ∧
    2 = 0 + (Node.countdown.walked.map Node.valueCount).sum ∧
    3 = 0 + (Node.countdown.walked.map Node.operatorCount).sum ∧
    2 = 1 + Node.countdown.walked.countP (fun node => node.kind = .declaration) := by
  have accepted : (Session.afterLoops.check .countdown).outcome =
      .ok { vars := 2, whiles := 5, enumValues := 2, operators := 3 } := by decide +kernel
  obtain ⟨-, -, whiles, -, values, operators, vars, -⟩ := counters_of_accepted accepted
  exact ⟨accepted, whiles, values, operators, vars⟩

/-! ## Declarations -/

/-- `after` binds the names of `table` as before and those of `done` besides, each to a type that
fits the way it has been declared. -/
structure SymbolTable.Gains (table : SymbolTable) (done : List (String × Origin))
    (after : SymbolTable) : Prop where
  kept : ∀ name type, table.lookup name = some type → after.lookup name = some type
  names : ∀ name, name ∈ after.names ↔ name ∈ table.names ∨ name ∈ done.map Prod.fst
  distinct : (done.map Prod.fst).Nodup
  fresh : ∀ name ∈ done.map Prod.fst, name ∉ table.names
  enumerations : ∀ name, (name, .enumeration) ∈ done → after.lookup name = some .enumType
  enumValues : ∀ name, (name, .enumValue) ∈ done → after.lookup name = some .enumValue
  declarations : ∀ name, (name, .declaration) ∈ done →
    ∃ type, after.lookup name = some type ∧ type ≠ .enumType ∧ type ≠ .enumValue

theorem SymbolTable.Extends.gains {table after : SymbolTable} {growth : Growth}
    (extended : table.Extends growth.bindings after) :
    table.Gains growth.script.declared after := by
  have names : growth.script.declared.map Prod.fst = growth.bindings.map Prod.fst := by
    simp [Growth.script]
  have bound : ∀ name origin, (name, origin) ∈ growth.script.declared →
      ∃ type, after.lookup name = some type ∧ type.origin = origin := by
    intro name origin member
    obtain ⟨⟨_, type⟩, gained, same⟩ := List.mem_map.mp member
    cases same
    exact ⟨type, extended.lookup_of_mem gained, rfl⟩
  constructor
  · exact fun name type => extended.lookup_of_lookup
  · intro name
    rw [names, extended.names_eq, List.mem_append]
  · rw [names]
    exact extended.nodup
  · rw [names]
    exact fun name => extended.fresh
  · intro name member
    obtain ⟨type, found, origin⟩ := bound name _ member
    rw [found, Ty.origin_eq_enumeration_iff.mp origin]
  · intro name member
    obtain ⟨type, found, origin⟩ := bound name _ member
    rw [found, Ty.origin_eq_enumValue_iff.mp origin]
  · intro name member
    obtain ⟨type, found, origin⟩ := bound name _ member
    refine ⟨type, found, ?_, ?_⟩
    · rintro rfl
      cases origin
    · rintro rfl
      cases origin

/-- Whatever its outcome, the check of a program leaves the table with the names it had and those of
an initial part of the declarations of the program. For an accepted program these are all of them,
and no name is declared twice. A program that is refused because a name is already bound has carried
out its declarations up to the one of that name. -/
theorem declarations_of_check (session : Session) (program : Node) :
    ∃ done pending : List (String × Origin),
      program.declared = done ++ pending ∧
      session.symbols.Gains done (session.check program).session.symbols ∧
      (∀ metrics, (session.check program).outcome = .ok metrics →
        pending = [] ∧ (program.declared.map Prod.fst).Nodup) ∧
      (∀ name, (session.check program).outcome =
          .error (.violation (.multipleDeclaration name)) →
        name ∈ (session.check program).session.symbols.names ∧
          ∃ origin later, pending = (name, origin) :: later) := by
  obtain ⟨growth, rest, extended, -, -, parts, left⟩ := session.check_follows program
  have declared : program.declared = growth.script.declared ++ rest.declared := by
    rw [Node.declared, ← Script.ofNodes_declared, ← parts, Script.add_declared]
  have gains := extended.gains
  refine ⟨growth.script.declared, rest.declared, declared, gains, ?_, ?_⟩
  · intro metrics accepted
    rw [accepted] at left
    cases left
    rw [declared, Script.zero_declared, List.append_nil]
    exact ⟨rfl, gains.distinct⟩
  · intro name refused
    rw [refused] at left
    exact left name rfl

end TreeCheck
