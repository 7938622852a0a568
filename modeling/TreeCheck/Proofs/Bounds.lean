import Mathlib.Algebra.GroupWithZero.Nat
import TreeCheck.Proofs.SessionProperties
import TreeCheck.Proofs.Tracking

/-!
# Bounds of the counters

A comparison counts one less than it has operands, and an enumeration one less than it has children,
while each of these children may count again. Over a whole tree this comes to less than twice the
number of its nodes: a node pays for itself and for the place it takes below its parent. So the
counters of a session fit into words unless more trees are checked than could be stored.
-/

set_option autoImplicit false

namespace TreeCheck

/-- All that has been counted. -/
def Metrics.total (metrics : Metrics) : Nat :=
  metrics.vars + metrics.whiles + metrics.ifs + metrics.enumValues + metrics.operators

theorem Metrics.total_add (left right : Metrics) :
    (left + right).total = left.total + right.total := by
  simp only [total, add_vars, add_whiles, add_ifs, add_enumValues, add_operators]
  omega

/-! ## Trees -/

namespace Node

private theorem total_tally_le (node : Node) : node.tally.total ≤ 1 + node.children.length := by
  rcases node with ⟨label, children⟩
  rw [Metrics.total, tally]
  cases label with
  | enumStmt =>
      simp [valueCount, operatorCount, kind, Label.kind]
      omega
  | compExpr operator | addExpr | mulExpr | boolExpr tokens | notExpr tokens | unaExpr tokens =>
      simp [valueCount, operatorCount, kind, Label.kind]
      split <;> omega
  | _ => simp [valueCount, operatorCount, kind, Label.kind]

/-- What nodes count together. -/
def weight (nodes : List Node) : Nat :=
  (nodes.map tally).sum.total

private theorem weight_cons (node : Node) (nodes : List Node) :
    weight (node :: nodes) = node.tally.total + weight nodes := by
  rw [weight, List.map_cons, List.sum_cons, Metrics.total_add, weight]

private theorem weight_append (earlier later : List Node) :
    weight (earlier ++ later) = weight earlier + weight later := by
  rw [weight, List.map_append, List.sum_append, Metrics.total_add, weight, weight]

/-- Each child leaves one for the place it takes below its parent. -/
theorem weight_walkBelow_le (label : Label) (index : Nat) {children : List Node}
    (light : ∀ child ∈ children, weight child.walk < 2 * child.size) :
    weight (walkBelow label index children) + children.length ≤ 2 * sizeAll children := by
  induction children generalizing index with
  | nil =>
      rw [walkBelow_nil]
      exact Nat.zero_le _
  | cons child rest ih =>
      obtain ⟨first, others⟩ := List.forall_mem_cons.mp light
      have below := ih (index + 1) others
      rw [walkBelow_cons, weight_append, List.length_cons, sizeAll]
      split
      · omega
      · have none : weight [] = 0 := rfl
        omega

private theorem weight_walk_lt (node : Node) : weight node.walk < 2 * node.size := by
  induction node using Node.childrenInduction with
  | step label children ih =>
      have own := total_tally_le ⟨label, children⟩
      have below := weight_walkBelow_le label 0 ih
      rw [walk, weight_cons, size]
      dsimp only [Node.children] at own
      omega

private theorem weight_flatMap_walk_le (items : List Node) :
    weight (items.flatMap walk) ≤ 2 * sizeAll items := by
  induction items with
  | nil => exact Nat.zero_le _
  | cons item rest ih =>
      have first := weight_walk_lt item
      rw [List.flatMap_cons, weight_append, sizeAll]
      omega

private theorem weight_walked_le (program : Node) : weight program.walked ≤ 2 * program.size := by
  rcases program with ⟨label, items⟩
  have bounded := weight_flatMap_walk_le items
  rw [size]
  exact Nat.le_trans bounded (by omega)

end Node

/-! ## Sessions -/

namespace Session

/-- Whatever its outcome, the check of a program adds at most twice its nodes. -/
theorem load_check_le (session : Session) (program : Node) :
    (session.check program).session.load ≤ session.load + 2 * program.size := by
  obtain ⟨growth, rest, extended, increase, -, parts, -⟩ := session.check_follows program
  have counted : growth.script.counts.total + rest.counts.total = Node.weight program.walked := by
    rw [← Metrics.total_add, ← Script.add_counts, parts, Script.ofNodes_counts, Node.weight]
  have bounded := Node.weight_walked_le program
  simp only [Growth.script, Metrics.total] at counted
  simp only [load, extended.variableCount_eq, increase.whiles, increase.ifs, increase.enumValues,
    increase.operators]
  omega

theorem Consistent.total_le_load {session : Session} (consistent : session.Consistent) :
    session.metrics.total ≤ session.load := by
  have vars := consistent.vars
  rw [Metrics.total, load]
  omega

theorem Consistent.total_checkAll_le {session : Session} (consistent : session.Consistent)
    {programs : List Node} {run : Run} (checked : run ∈ session.checkAll programs) :
    run.session.metrics.total ≤ session.load + 2 * Node.sizeAll programs := by
  induction programs generalizing session with
  | nil => simp [checkAll] at checked
  | cons program rest ih =>
      have added := session.load_check_le program
      have next := consistent.check program
      rw [checkAll] at checked
      rw [Node.sizeAll]
      cases checked with
      | head => exact Nat.le_trans next.total_le_load (by omega)
      | tail _ later => exact Nat.le_trans (ih next later) (by omega)

end Session

/-! ## Words -/

namespace Word

/-- The counters of a run, read as numbers. -/
def Run.toExact (run : Run) : Except Halt Metrics × Session :=
  (Counters.toMetrics <$> run.outcome, run.state.toSession)

theorem Counters.toMetrics_ofMetrics {metrics : Metrics} (small : metrics.total < 2 ^ 64) :
    (ofMetrics metrics).toMetrics = metrics := by
  rw [Metrics.total] at small
  ext
  all_goals
    apply UInt64.toNat_ofNat_of_lt'
    exact Nat.lt_of_le_of_lt (by omega) small

theorem Run.toExact_ofExact {session : Session} {program : Node}
    (small : (session.check program).session.metrics.total < 2 ^ 64) :
    (Run.ofExact (session.check program)).toExact =
      ((session.check program).outcome.mapError .fault, (session.check program).session) := by
  have state : (State.ofSession (session.check program).session).toSession =
      (session.check program).session := by
    rw [State.toSession, State.ofSession, Counters.toMetrics_ofMetrics small]
  rw [toExact, ofExact, state]
  cases outcome : (session.check program).outcome with
  | error fault => rfl
  | ok metrics =>
      obtain ⟨same, -⟩ := Session.metrics_of_accepted outcome
      rw [same] at small
      exact congrArg (fun read => (Except.ok read, _)) (Counters.toMetrics_ofMetrics small)

variable {trapping : Bool}

theorem State.checkAll_fault_or_overflow {state : State} {programs : List Node} {run : Run}
    (checked : run ∈ state.checkAll trapping programs) {halt : Halt}
    (halted : run.outcome = .error halt) : (∃ fault, halt = .fault fault) ∨ halt = .overflow := by
  induction programs generalizing state with
  | nil => simp [checkAll] at checked
  | cons program rest ih =>
      rw [checkAll] at checked
      cases checked with
      | head => exact fault_or_overflow halted
      | tail _ later => exact ih later

theorem State.toExact_checkAll {session : Session} (consistent : session.Consistent)
    {programs : List Node} (small : session.load + 2 * Node.sizeAll programs < 2 ^ 64) :
    ((ofSession session).checkAll trapping programs).map Run.toExact =
      (session.checkAll programs).map fun run => (run.outcome.mapError .fault, run.session) := by
  induction programs generalizing session with
  | nil => rfl
  | cons program rest ih =>
      have added := session.load_check_le program
      have next := consistent.check program
      rw [Node.sizeAll] at small
      have fits : (session.check program).session.metrics.total < 2 ^ 64 :=
        Nat.lt_of_le_of_lt next.total_le_load (by omega)
      obtain same | ⟨-, large, -⟩ := check_ofSession trapping session program
      · rw [checkAll, Session.checkAll, List.map_cons, List.map_cons, same,
          Run.toExact_ofExact fits]
        exact congrArg (_ :: ·) (ih next (by omega))
      · omega

end Word

/-- In a new session, whatever programs are checked in it and whichever of them are accepted, what
has been counted after any of them is at most twice the number of their nodes. A machine that counts
in words, traps or not, is never asked for one less than nothing or for a cut behind the end of a
list. As long as there are less than `2 ^ 63` nodes its counters, read as numbers, are the exact
ones, and all its outcomes and tables are those of the session. -/
theorem counters_fit_words (programs : List Node) :
    (∀ run ∈ Session.checkAll {} programs,
      run.session.metrics.total ≤ 2 * Node.sizeAll programs) ∧
    (∀ trapping, ∀ run ∈ Word.State.checkAll trapping {} programs,
      run.outcome ≠ .error .underflow ∧ run.outcome ≠ .error .outOfRange) ∧
    (Node.sizeAll programs < 2 ^ 63 →
      ∀ trapping, (Word.State.checkAll trapping {} programs).map Word.Run.toExact =
        (Session.checkAll {} programs).map fun run =>
          (run.outcome.mapError .fault, run.session)) := by
  have consistent := Session.consistent_empty
  have empty : Session.load {} = 0 := rfl
  refine ⟨?_, ?_, ?_⟩
  · intro run checked
    have bounded := consistent.total_checkAll_le checked
    omega
  · intro trapping run checked
    constructor
    all_goals
      intro halted
      obtain ⟨fault, same⟩ | same := Word.State.checkAll_fault_or_overflow checked halted
      · cases same
      · cases same
  · intro few trapping
    have small : Session.load {} + 2 * Node.sizeAll programs < 2 ^ 64 := by omega
    exact Word.State.toExact_checkAll consistent small

end TreeCheck
