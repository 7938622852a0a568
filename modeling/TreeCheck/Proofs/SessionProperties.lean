import TreeCheck.Proofs.LogProperties
import TreeCheck.Proofs.Retyping
import TreeCheck.Proofs.Sequence

/-!
# What holds in every session

A session goes on after a fault, with whatever the refused program has declared and counted. What
holds nevertheless between its table and its counters is shown for one more program, whatever its
outcome, and then for any sequence of programs.
-/

set_option autoImplicit false

namespace TreeCheck

namespace SymbolTable

/-- The number of names bound to a type. -/
def countOf (table : SymbolTable) (type : Ty) : Nat :=
  table.names.countP fun name => table.lookup name == some type

private theorem countOf_eq (table : SymbolTable) (type : Ty) :
    table.countOf type = table.entries.countP fun entry => entry.2 == type := by
  rw [countOf, names, List.countP_map]
  apply List.countP_congr
  intro entry member
  have found : table.lookup entry.1 = some entry.2 := lookup_eq_some_iff.mpr member
  simp [found]

theorem Extends.countOf_eq {table after : SymbolTable} {bindings : List (String × Ty)}
    (extended : table.Extends bindings after) (type : Ty) :
    after.countOf type = table.countOf type + bindings.countP fun entry => entry.2 == type := by
  rw [SymbolTable.countOf_eq, SymbolTable.countOf_eq, extended, List.countP_append]

theorem size_eq (table : SymbolTable) :
    table.size = table.variableCount + table.countOf .enumType + table.countOf .enumValue := by
  rw [countOf_eq, countOf_eq]
  exact length_bindings table.entries

/-- Variables and values of enumerations are bound only where an enumeration is. -/
def Enumerated (table : SymbolTable) : Prop :=
  ∀ name, table.lookup name = some .enumVar ∨ table.lookup name = some .enumValue →
    ∃ enumeration, table.lookup enumeration = some .enumType

private theorem lookup_of_declaredType {table : SymbolTable} {typeName : String}
    (declared : table.declaredType typeName = .enumVar) :
    table.lookup typeName = some .enumType := by
  rw [declaredType, Ty.ofKeyword?] at declared
  split at declared
  · rename_i keyword
    split at keyword
    · cases keyword
      cases declared
    · split at keyword
      · cases keyword
        cases declared
      · cases keyword
  · split at declared
    · assumption
    · cases declared

theorem Enumerated.declare {table after : SymbolTable} {name : String} {type : Ty}
    (enumerated : table.Enumerated) (extended : table.Extends [(name, type)] after)
    (known : type = .enumVar ∨ type = .enumValue →
      ∃ enumeration, table.lookup enumeration = some .enumType) : after.Enumerated := by
  intro other bound
  have earlier : ∃ enumeration, table.lookup enumeration = some .enumType := by
    rw [extended.lookup_eq] at bound
    cases found : table.lookup other with
    | some foundType =>
        rw [found, Option.some_or] at bound
        exact enumerated other (by rw [found]; exact bound)
    | none =>
        rw [found, Option.none_or, List.lookup_cons] at bound
        split at bound
        · exact known (by simpa using bound)
        · simp at bound
  obtain ⟨enumeration, found⟩ := earlier
  exact ⟨enumeration, extended.lookup_of_lookup found⟩

end SymbolTable

/-! ## Enumerations -/

def Walk.KeepsEnumerated (before after : Walk) : Prop :=
  before.session.symbols.Enumerated → after.session.symbols.Enumerated

theorem Walk.permits_keepsEnumerated : Permits KeepsEnumerated where
  refl _ := id
  trans first second := second ∘ first
  emit _ _ := id
  count _ _ _ := id

namespace Check

private theorem announced_keepsEnumerated (name : String) {type : Ty} {walk : Walk}
    (known : type = .enumVar ∨ type = .enumValue →
      ∃ enumeration, walk.session.symbols.lookup enumeration = some .enumType) :
    walk.KeepsEnumerated
      ((emit (.declareVariable name type) >>= fun _ => declare name type) walk).2 := by
  intro enumerated
  rcases declare_cases name type (emit (.declareVariable name type) walk).2 with
    ⟨-, stopped⟩ | ⟨symbols, extended, declared⟩
  · rw [emit_bind_apply, stopped]
    exact enumerated
  · rw [emit_bind_apply, declared]
    exact enumerated.declare extended known

private theorem declareVariable_keepsEnumerated (typeName : Option String) (children : List Node) :
    (declareVariable typeName children).Along Walk.KeepsEnumerated := by
  have permits := Walk.permits_keepsEnumerated
  have named := (inherited_along permits).identifierAt .declaration children
  have known (table : SymbolTable) (typeName : String) :
      table.declaredType typeName = .enumVar ∨ table.declaredType typeName = .enumValue →
        ∃ enumeration, table.lookup enumeration = some .enumType := by
    rintro (enumVar | enumValue)
    · exact ⟨typeName, SymbolTable.lookup_of_declaredType enumVar⟩
    · have origin := table.declaredType_origin typeName
      rw [enumValue] at origin
      cases origin
  rw [declareVariable]
  split
  · apply (named 0).bind permits
    intro enumType
    apply (named 1).bind permits
    intro name walk
    rw [current_bind_apply]
    split
    · exact announced_keepsEnumerated name (known walk.session.symbols enumType)
    · exact permits.refl walk
  · apply (named 0).bind permits
    intro name walk
    rw [current_bind_apply]
    apply announced_keepsEnumerated name
    cases typeName with
    | none => simp
    | some typeName => exact known walk.session.symbols typeName

private theorem declareEnum_keepsEnumerated (children : List Node) :
    (declareEnum children).Along Walk.KeepsEnumerated := by
  have permits := Walk.permits_keepsEnumerated
  cases children with
  | nil => exact along_fail permits _
  | cons first values =>
      rw [declareEnum]
      apply ((inherited_along permits).identifier _ _ _).bind permits
      intro typeName
      apply Along.bind permits (permits.count { enumValues := values.length } rfl)
      intro _
      apply Along.bind permits (permits.emit _)
      intro _ walk
      rcases declare_cases typeName .enumType walk with ⟨-, stopped⟩ | ⟨symbols, extended, declared⟩
      · rw [bind_of_error _ stopped]
        exact permits.refl walk
      · rw [bind_of_ok _ declared]
        have kept := along_declareValues Walk.permits_keepsBindings declare_keepsBindings 1 values
          { walk with session := { walk.session with symbols } }
        intro _ _ _
        exact ⟨typeName, kept.lookup (extended.lookup_of_mem (by simp))⟩

end Check

/-! ## One more program -/

namespace Session

private theorem readItems_along {relation : Walk → Walk → Prop} (permits : Walk.Permits relation)
    (declaredVariable : ∀ typeName children,
      (Check.declareVariable typeName children).Along relation)
    (declaredEnum : ∀ children, (Check.declareEnum children).Along relation) (session : Session)
    (items : List Node) :
    relation ⟨session, [.checking (Node.mk .program items).size]⟩ (session.readItems items).2 :=
  Check.along_visitEach permits
    (fun item _ => Check.along_visit permits declaredVariable declaredEnum item) .plain .any [] _

private theorem enumerated_of_check {session : Session} (enumerated : session.symbols.Enumerated)
    (program : Node) : (session.check program).session.symbols.Enumerated := by
  have kept := session.readItems_along Walk.permits_keepsEnumerated
    Check.declareVariable_keepsEnumerated Check.declareEnum_keepsEnumerated
  refine session.check_cases program ?_ ?_ ?_
  · exact fun _ _ => enumerated
  · intro items fault reached stopped
    have after := kept items enumerated
    rw [stopped] at after
    exact after
  · intro items types reached done
    have after := kept items enumerated
    rw [done] at after
    exact after

private theorem vars_of_refused {session : Session} {program : Node} {fault : Fault}
    (refused : (session.check program).outcome = .error fault) :
    (session.check program).session.metrics.vars = session.metrics.vars := by
  have permits := Walk.permits_keepsVars
  have kept := session.readItems_along permits
    (Check.along_declareVariable permits Check.declare_keepsVars)
    (Check.along_declareEnum permits Check.declare_keepsVars)
  revert refused
  refine session.check_cases program ?_ ?_ ?_
  · exact fun _ _ _ => rfl
  · intro items fault reached stopped _
    have after := kept items
    rw [stopped] at after
    exact after
  · intro items types reached done refused
    cases refused

/-- The counters and the table of the session fit together. -/
structure Consistent (session : Session) : Prop where
  vars : session.metrics.vars ≤ session.symbols.variableCount
  enumValues : session.symbols.countOf .enumValue ≤ session.metrics.enumValues
  enumerated : session.symbols.Enumerated

theorem Consistent.check {session : Session} (consistent : session.Consistent) (program : Node) :
    (session.check program).session.Consistent where
  vars := by
    obtain ⟨growth, extended, -, -, -⟩ := session.check_accounts program
    cases outcome : (session.check program).outcome with
    | ok metrics =>
        obtain ⟨same, counted⟩ := metrics_of_accepted outcome
        rw [same]
        exact Nat.le_of_eq counted
    | error fault =>
        have before := consistent.vars
        rw [vars_of_refused outcome, extended.variableCount_eq]
        omega
  enumValues := by
    obtain ⟨growth, extended, increase, accounts, -⟩ := session.check_accounts program
    have before := consistent.enumValues
    have covered := accounts.covered
    rw [extended.countOf_eq, increase.enumValues]
    omega
  enumerated := enumerated_of_check consistent.enumerated program

private theorem enumValues_of_accepted {session : Session} {program : Node} {metrics : Metrics}
    (settled : session.symbols.countOf .enumValue = session.metrics.enumValues)
    (accepted : (session.check program).outcome = .ok metrics) :
    (session.check program).session.symbols.countOf .enumValue =
      (session.check program).session.metrics.enumValues := by
  obtain ⟨growth, extended, increase, accounts, -⟩ := session.check_accounts program
  have balanced := accounts.settled metrics accepted
  rw [extended.countOf_eq, increase.enumValues, balanced.counted, settled]

/-! ## Any sequence of programs -/

/-- The session after programs have been checked one after the other. -/
def after (session : Session) (programs : List Node) : Session :=
  programs.foldl (fun reached program => (reached.check program).session) session

theorem Consistent.after {session : Session} (consistent : session.Consistent)
    (programs : List Node) : (session.after programs).Consistent := by
  induction programs generalizing session with
  | nil => exact consistent
  | cons program rest ih => exact ih (consistent.check program)

private theorem enumValues_of_all_accepted {session : Session} {programs : List Node}
    (settled : session.symbols.countOf .enumValue = session.metrics.enumValues)
    (accepted : ∀ run ∈ session.checkAll programs, ∃ metrics, run.outcome = .ok metrics) :
    (session.after programs).symbols.countOf .enumValue =
      (session.after programs).metrics.enumValues := by
  induction programs generalizing session with
  | nil => exact settled
  | cons program rest ih =>
      obtain ⟨⟨metrics, first⟩, others⟩ := List.forall_mem_cons.mp accepted
      exact ih (enumValues_of_accepted settled first) others

end Session

theorem Session.consistent_empty : Session.Consistent {} where
  vars := Nat.le_refl 0
  enumValues := Nat.le_refl 0
  enumerated name bound := by simp [SymbolTable.lookup] at bound

/-- In every session, whatever programs have been checked in it and whichever of them have been
accepted, no more variables are counted than declared, and right after an accepted program as many;
no more values of enumerations are declared than counted, and as many as long as every program has
been accepted; variables and values of enumerations come with an enumeration; and every name is that
of a variable, of an enumeration or of one of its values. -/
theorem session_fits_together (programs : List Node) :
    (Session.after {} programs).metrics.vars ≤ (Session.after {} programs).symbols.variableCount ∧
    (∀ program metrics, ((Session.after {} programs).check program).outcome = .ok metrics →
      (Session.after {} (programs ++ [program])).metrics.vars =
        (Session.after {} (programs ++ [program])).symbols.variableCount) ∧
    (Session.after {} programs).symbols.countOf .enumValue ≤
      (Session.after {} programs).metrics.enumValues ∧
    ((∀ run ∈ Session.checkAll {} programs, ∃ metrics, run.outcome = .ok metrics) →
      (Session.after {} programs).symbols.countOf .enumValue =
        (Session.after {} programs).metrics.enumValues) ∧
    (∀ name, (Session.after {} programs).symbols.lookup name = some .enumVar ∨
        (Session.after {} programs).symbols.lookup name = some .enumValue →
      ∃ enumeration,
        (Session.after {} programs).symbols.lookup enumeration = some .enumType) ∧
    (Session.after {} programs).symbols.size =
      (Session.after {} programs).symbols.variableCount +
        (Session.after {} programs).symbols.countOf .enumType +
        (Session.after {} programs).symbols.countOf .enumValue := by
  have consistent := Session.consistent_empty.after programs
  refine ⟨consistent.vars, ?_, consistent.enumValues, ?_, consistent.enumerated,
    SymbolTable.size_eq _⟩
  · intro program metrics accepted
    obtain ⟨same, counted⟩ := Session.metrics_of_accepted accepted
    have last : Session.after {} (programs ++ [program]) =
        ((Session.after {} programs).check program).session := by
      rw [Session.after, List.foldl_append]
      rfl
    rw [last, same, counted]
  · exact fun accepted => Session.enumValues_of_all_accepted rfl accepted

end TreeCheck
