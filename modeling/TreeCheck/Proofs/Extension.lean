import TreeCheck.Symbols

/-!
# Growing tables

A table only ever grows: `Extends` says which bindings it has gained. Since no table binds a name
twice, the bindings gained are of new names that differ from each other.
-/

set_option autoImplicit false

namespace TreeCheck.SymbolTable

theorem lookup_eq_some_iff {table : SymbolTable} {name : String} {type : Ty} :
    table.lookup name = some type ↔ (name, type) ∈ table.entries := by
  rw [lookup, List.lookup_eq_some_iff]
  constructor
  · rintro ⟨before, later, split, -⟩
    rw [split]
    exact List.mem_append_right _ List.mem_cons_self
  · intro member
    obtain ⟨before, later, split⟩ := List.append_of_mem member
    refine ⟨before, later, split, fun entry earlier => ?_⟩
    have distinct := table.distinct
    rw [split, List.map_append, List.nodup_append] at distinct
    have differs : entry.1 ≠ name :=
      distinct.2.2 entry.1 (List.mem_map_of_mem earlier) name List.mem_cons_self
    exact bne_iff_ne.mpr differs.symm

/-- `after` has the bindings of `table` and then those given, in this order. -/
def Extends (table : SymbolTable) (bindings : List (String × Ty)) (after : SymbolTable) : Prop :=
  after.entries = table.entries ++ bindings

variable {table middle after : SymbolTable} {bindings earlier later : List (String × Ty)}

theorem extends_nil_iff : table.Extends [] after ↔ after = table := by
  rw [Extends, List.append_nil]
  exact ⟨SymbolTable.ext, congrArg entries⟩

theorem Extends.refl (table : SymbolTable) : table.Extends [] table :=
  extends_nil_iff.mpr rfl

theorem Extends.trans (first : table.Extends earlier middle) (second : middle.Extends later after) :
    table.Extends (earlier ++ later) after := by
  rw [Extends, second, first, List.append_assoc]

/-- A table that has gained bindings has passed through every stage on the way. -/
theorem Extends.split (extended : table.Extends (earlier ++ later) after) :
    ∃ middle, table.Extends earlier middle ∧ middle.Extends later after := by
  have whole : after.entries = (table.entries ++ earlier) ++ later := by
    rw [extended, List.append_assoc]
  have distinct : ((table.entries ++ earlier).map Prod.fst).Nodup := by
    have all := after.distinct
    rw [whole, List.map_append] at all
    exact (List.nodup_append.mp all).1
  exact ⟨⟨table.entries ++ earlier, distinct⟩, rfl, whole⟩

theorem Extends.names_eq (extended : table.Extends bindings after) :
    after.names = table.names ++ bindings.map Prod.fst := by
  rw [names, extended, List.map_append, names]

theorem Extends.nodup (extended : table.Extends bindings after) :
    (bindings.map Prod.fst).Nodup := by
  have all := after.distinct
  rw [extended, List.map_append] at all
  exact (List.nodup_append.mp all).2.1

theorem Extends.fresh (extended : table.Extends bindings after) {name : String}
    (gained : name ∈ bindings.map Prod.fst) : name ∉ table.names := by
  intro declared
  have all := after.distinct
  rw [extended, List.map_append] at all
  exact (List.nodup_append.mp all).2.2 name declared name gained rfl

theorem Extends.lookup_eq (extended : table.Extends bindings after) (name : String) :
    after.lookup name = (table.lookup name).or (bindings.lookup name) := by
  rw [lookup, extended, List.lookup_append, lookup]

theorem Extends.lookup_of_lookup (extended : table.Extends bindings after) {name : String}
    {type : Ty} (bound : table.lookup name = some type) : after.lookup name = some type := by
  rw [extended.lookup_eq, bound, Option.some_or]

theorem Extends.lookup_of_mem (extended : table.Extends bindings after) {name : String} {type : Ty}
    (gained : (name, type) ∈ bindings) : after.lookup name = some type := by
  rw [lookup_eq_some_iff, extended]
  exact List.mem_append_right _ gained

theorem Extends.variableCount_eq (extended : table.Extends bindings after) :
    after.variableCount =
      table.variableCount + bindings.countP fun entry => entry.2.isVariable := by
  rw [variableCount, extended, List.countP_append, variableCount]

theorem declare_eq_ok_iff {name : String} {type : Ty} :
    table.declare name type = .ok after ↔ table.Extends [(name, type)] after := by
  by_cases bound : name ∈ table.names
  · rw [declare_of_mem type bound]
    constructor
    · intro declared
      cases declared
    · intro extended
      exact absurd bound (extended.fresh (by simp))
  · rw [declare_of_not_mem type bound, Except.ok.injEq]
    constructor
    · rintro rfl
      rfl
    · intro extended
      exact SymbolTable.ext (Eq.symm extended)

theorem declare_eq_error_iff {name : String} {type : Ty} {broken : Violation} :
    table.declare name type = .error broken ↔
      name ∈ table.names ∧ broken = .multipleDeclaration name := by
  by_cases bound : name ∈ table.names
  · rw [declare_of_mem type bound, Except.error.injEq]
    exact ⟨fun same => ⟨bound, same.symm⟩, fun same => same.2.symm⟩
  · rw [declare_of_not_mem type bound]
    constructor
    · intro stopped
      cases stopped
    · intro stopped
      exact absurd stopped.1 bound

end TreeCheck.SymbolTable
