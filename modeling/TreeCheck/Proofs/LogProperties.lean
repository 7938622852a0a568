import TreeCheck.Proofs.Accounts
import TreeCheck.Proofs.ScriptProperties

/-!
# The log of a run

The log of a run tells in which order a program has been walked. It follows the shape of the
program up to the point where the run is stopped, and what it announces on the way is what an
accepted program is reported to have declared and counted.
-/

set_option autoImplicit false

namespace TreeCheck

/-- The visits that the shape of a program asks for, parents before children. -/
def Node.visits (program : Node) : List (Kind × Nat) :=
  program.walked.map fun node => (node.kind, node.children.length)

theorem Session.visits_of_check (session : Session) (program : Node) :
    ∃ pending, program.visits =
        (session.check program).events.filterMap Event.visited? ++ pending ∧
      ∀ metrics, (session.check program).outcome = .ok metrics → pending = [] := by
  obtain ⟨growth, rest, -, -, visited, parts, left⟩ := session.check_follows program
  refine ⟨rest.visited, ?_, ?_⟩
  · rw [visited, ← Script.add_visited, parts, Script.ofNodes_visited]
    rfl
  · intro metrics accepted
    rw [accepted] at left
    rw [show rest = 0 from left, Script.zero_visited]

/-- Every name is bound to a variable, an enumeration or a value of one. -/
theorem length_bindings (bindings : List (String × Ty)) :
    bindings.length = (bindings.countP fun binding => binding.2.isVariable) +
      (bindings.countP fun binding => binding.2 == .enumType) +
      bindings.countP fun binding => binding.2 == .enumValue := by
  induction bindings with
  | nil => rfl
  | cons binding rest ih =>
      obtain ⟨name, type⟩ := binding
      cases type <;> simp [Ty.isVariable, ih] <;> omega

/-- The log of a program that is checked on its own. -/
def Node.log (program : Node) : List Event :=
  (Session.check {} program).events

theorem Session.closing_of_accepted {session : Session} {program : Node} {metrics : Metrics}
    (accepted : (session.check program).outcome = .ok metrics) :
    (session.check program).closing =
      [.wellTyped (session.check program).session.symbols.size metrics.vars metrics.operators] := by
  rw [Run.closing, accepted]

theorem Session.closing_of_refused {session : Session} {program : Node} {fault : Fault}
    (refused : (session.check program).outcome = .error fault) :
    (session.check program).closing = [] := by
  rw [Run.closing, refused]

private theorem sum_map_one_add (values : List Nat) :
    (values.map (1 + ·)).sum = values.length + values.sum := by
  induction values with
  | nil => rfl
  | cons value rest ih =>
      simp only [List.map_cons, List.sum_cons, List.length_cons, ih]
      omega

/-- The log starts with the size of the program. For an accepted program the visits are those that
the shape of the program asks for, the announcements add up to the metrics, and the last event, the
only one of its kind, repeats the metrics and gives the number of names announced. For a refused
program the visits are an initial part of the same list, and nothing is reported at the end. -/
theorem log_of_program (items : List Node) :
    (Node.program items).log.head? = some (.checking (Node.program items).size) ∧
    (∀ metrics, analyze (.program items) = .ok metrics →
      (Node.program items).log.filterMap Event.visited? = (Node.program items).visits ∧
      (Node.program items).log.countP Event.announcesVariable = metrics.vars ∧
      ((Node.program items).log.filterMap Event.values?).sum = metrics.enumValues ∧
      ∃ earlier symbols,
        (Node.program items).log =
          earlier ++ [.wellTyped symbols metrics.vars metrics.operators] ∧
        (∀ event ∈ earlier, event.closes = false) ∧
        symbols = (Node.program items).log.countP Event.announcesVariable +
          (((Node.program items).log.filterMap Event.values?).map (1 + ·)).sum) ∧
    (∀ fault, analyze (.program items) = .error fault →
      (Node.program items).log.filterMap Event.visited? <+: (Node.program items).visits ∧
      ∀ event ∈ (Node.program items).log, event.closes = false) := by
  obtain ⟨growth, extended, increase, accounts, logged⟩ :=
    Session.check_accounts {} (.program items)
  obtain ⟨pending, visits, all⟩ := Session.visits_of_check {} (.program items)
  have log : (Node.program items).log = _ := logged rfl
  refine ⟨by rw [log]; rfl, ?_, ?_⟩
  · intro metrics accepted
    have balanced := accounts.settled metrics accepted
    obtain ⟨same, counted⟩ := Session.metrics_of_accepted accepted
    rw [Session.closing_of_accepted accepted] at log
    have vars : (Node.program items).log.countP Event.announcesVariable =
        growth.events.countP Event.announcesVariable := by
      simp [log, Event.announcesVariable]
    have values : (Node.program items).log.filterMap Event.values? =
        growth.events.filterMap Event.values? := by
      rw [log, List.filterMap_cons_none rfl, List.filterMap_append]
      exact List.append_nil _
    have declared : (Session.check {} (.program items)).session.symbols.entries =
        growth.bindings := extended
    refine ⟨?_, ?_, ?_, .checking _ :: growth.events, _, log, ?_, ?_⟩
    · rw [all metrics accepted, List.append_nil] at visits
      exact visits.symm
    · rw [vars, balanced.vars, counted, SymbolTable.variableCount, declared]
    · rw [values, balanced.announced, ← same, increase.enumValues]
      exact (Nat.zero_add _).symm
    · exact List.forall_mem_cons.mpr ⟨rfl, accounts.running⟩
    · rw [vars, values, SymbolTable.size, declared, length_bindings, ← balanced.vars,
        ← balanced.enumTypes, balanced.counted, ← balanced.announced, sum_map_one_add,
        Nat.add_assoc]
  · intro fault refused
    constructor
    · exact ⟨pending, visits.symm⟩
    · rw [log, Session.closing_of_refused refused, List.append_nil]
      exact List.forall_mem_cons.mpr ⟨rfl, accounts.running⟩

end TreeCheck
