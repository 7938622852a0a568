import Mathlib.Data.Set.Card
import TreeCheck.Proofs.TypingConditions

/-!
# Tables and their history

What a table answers depends only on the operations carried out on it so far, and of these only on
the declarations: a name has the type of its first declaration. This is proved for every sequence of
operations on an empty table, those that fail included.
-/

set_option autoImplicit false

namespace TreeCheck

namespace SymbolTable

/-! ## Operations -/

inductive Request
  | declare (name : String) (type : Ty)
  | lookup (name : String)
  | isTypeName (name : String)
  | declaredType (name : String)
  /-- Asks for all bindings. -/
  | iterate
deriving DecidableEq

inductive Answer
  | declared (outcome : Except Violation Unit)
  | found (type : Option Ty)
  | typeName (known : Bool)
  | resolved (type : Ty)
  | listed (bindings : List (String × Ty))

def perform (table : SymbolTable) : Request → Answer × SymbolTable
  | .declare name type =>
    match table.declare name type with
    | .ok after => (.declared (.ok ()), after)
    | .error broken => (.declared (.error broken), table)
  | .lookup name => (.found (table.lookup name), table)
  | .isTypeName name => (.typeName (table.isTypeName name), table)
  | .declaredType name => (.resolved (table.declaredType name), table)
  | .iterate => (.listed table.sorted, table)

/-- Carries out operations one after the other, going on after a failure. -/
def run (table : SymbolTable) : List Request → List Answer × SymbolTable
  | [] => ([], table)
  | request :: rest =>
    let (answer, after) := table.perform request
    let (answers, final) := after.run rest
    (answer :: answers, final)

/-! ## What the history says -/

/-- Some operation declares the name, whatever came of it. -/
def Declared (history : List Request) (name : String) : Prop :=
  ∃ type, .declare name type ∈ history

/-- The first operation that declares the name gives it this type. -/
def FirstDeclared (history : List Request) (name : String) (type : Ty) : Prop :=
  ∃ before after, history = before ++ .declare name type :: after ∧ ¬ Declared before name

/-- The bindings are those of the first declarations, and no name is listed twice. -/
structure Lists (history : List Request) (bindings : List (String × Ty)) : Prop where
  distinct : (bindings.map Prod.fst).Nodup
  complete : ∀ name type, (name, type) ∈ bindings ↔ FirstDeclared history name type

/-- The answer to an operation that is carried out after those of the history. -/
def Expects (history : List Request) : Request → Answer → Prop
  | .declare name _, .declared (.ok _) => ¬ Declared history name
  | .declare name _, .declared (.error broken) =>
    Declared history name ∧ broken = .multipleDeclaration name
  | .lookup name, .found found => ∀ type, found = some type ↔ FirstDeclared history name type
  | .isTypeName name, .typeName known =>
    known = true ↔ name = "num" ∨ name = "bool" ∨ FirstDeclared history name .enumType
  | .declaredType name, .resolved type =>
    (name = "num" → type = .number) ∧ (name = "bool" → type = .bool) ∧
      (name ≠ "num" → name ≠ "bool" →
        (FirstDeclared history name .enumType → type = .enumVar) ∧
        (¬ FirstDeclared history name .enumType → type = .unknown))
  | .iterate, .listed bindings => Lists history bindings
  | _, _ => False

private theorem declared_concat_iff {history : List Request} {request : Request} {name : String} :
    Declared (history ++ [request]) name ↔
      Declared history name ∨ ∃ type, request = .declare name type := by
  simp only [Declared, List.mem_append, List.mem_singleton, exists_or, eq_comm]

private theorem firstDeclared_concat_iff {history : List Request} {request : Request}
    {name : String}
    {type : Ty} :
    FirstDeclared (history ++ [request]) name type ↔
      FirstDeclared history name type ∨
        (¬ Declared history name ∧ request = .declare name type) := by
  constructor
  · rintro ⟨before, after, split, fresh⟩
    rcases List.eq_nil_or_concat after with rfl | ⟨rest, last, rfl⟩
    · obtain ⟨rfl, same⟩ := List.append_inj' split rfl
      exact .inr ⟨fresh, List.singleton_inj.mp same⟩
    · rw [List.concat_eq_append, ← List.cons_append, ← List.append_assoc] at split
      obtain ⟨rfl, -⟩ := List.append_inj' split rfl
      exact .inl ⟨before, rest, rfl, fresh⟩
  · rintro (⟨before, after, rfl, fresh⟩ | ⟨fresh, rfl⟩)
    · exact ⟨before, after ++ [request], by simp, fresh⟩
    · exact ⟨history, [], rfl, fresh⟩

private theorem declared_iff_exists_firstDeclared {history : List Request} {name : String} :
    Declared history name ↔ ∃ type, FirstDeclared history name type := by
  induction history using List.reverseRecOn with
  | nil => simp [Declared, FirstDeclared]
  | append_singleton history request ih =>
      simp only [declared_concat_iff, firstDeclared_concat_iff, exists_or, ← ih]
      by_cases declared : Declared history name <;> simp [declared]

/-! ## Tables that follow a history -/

/-- The table binds every name to the type of its first declaration, and no others. -/
def Records (history : List Request) (table : SymbolTable) : Prop :=
  ∀ name type, table.lookup name = some type ↔ FirstDeclared history name type

private theorem records_empty : Records [] empty := by
  intro name type
  simp [lookup, FirstDeclared]

section

variable {table : SymbolTable} {name : String} (type : Ty)

private theorem perform_declare_of_mem (bound : name ∈ table.names) :
    table.perform (.declare name type) =
      (.declared (.error (.multipleDeclaration name)), table) := by
  rw [perform, declare_of_mem type bound]

private theorem perform_declare_of_not_mem (fresh : name ∉ table.names) :
    table.perform (.declare name type) = (.declared (.ok ()), table.bind name type fresh) := by
  rw [perform, declare_of_not_mem type fresh]

end

namespace Records

variable {history : List Request} {table : SymbolTable}

theorem mem_names_iff (recorded : Records history table) (name : String) :
    name ∈ table.names ↔ Declared history name := by
  have bound : name ∈ table.names ↔ ∃ type, table.lookup name = some type := by
    rw [← Option.isSome_iff_exists, ← Option.ne_none_iff_isSome, ne_eq, lookup_eq_none_iff,
      not_not]
  rw [bound, declared_iff_exists_firstDeclared]
  exact exists_congr fun type => recorded name type

private theorem perform (recorded : Records history table) (request : Request) :
    Records (history ++ [request]) (table.perform request).2 := by
  intro name type
  rw [firstDeclared_concat_iff, ← recorded name type, ← recorded.mem_names_iff]
  cases request with
  | declare other given =>
      by_cases bound : other ∈ table.names
      · rw [perform_declare_of_mem given bound]
        constructor
        · exact .inl
        · rintro (found | ⟨fresh, same⟩)
          · exact found
          · cases same
            exact absurd bound fresh
      · rw [perform_declare_of_not_mem given bound]
        have extended : table.Extends [(other, given)] (table.bind other given bound) := rfl
        constructor
        · intro found
          rw [lookup_eq_some_iff, extended, List.mem_append, ← lookup_eq_some_iff] at found
          rcases found with found | added
          · exact .inl found
          · cases List.mem_singleton.mp added
            exact .inr ⟨bound, rfl⟩
        · rintro (found | ⟨-, same⟩)
          · exact extended.lookup_of_lookup found
          · cases same
            exact extended.lookup_of_mem List.mem_cons_self
  | _ => simp [SymbolTable.perform]

theorem run {earlier : List Request} (recorded : Records earlier table) (history : List Request) :
    Records (earlier ++ history) (table.run history).2 := by
  induction history generalizing earlier table with
  | nil =>
      rw [List.append_nil]
      exact recorded
  | cons request rest ih =>
      have later := ih (recorded.perform request)
      rw [List.append_assoc] at later
      exact later

private theorem lists_entries (recorded : Records history table) : Lists history table.entries where
  distinct := table.distinct
  complete name type := by rw [← lookup_eq_some_iff, recorded name type]

private theorem lists_sorted (recorded : Records history table) : Lists history table.sorted := by
  have listed := recorded.lists_entries
  have same := List.mergeSort_perm table.entries fun left right => decide (left.1 ≤ right.1)
  exact ⟨(same.map Prod.fst).nodup_iff.mpr listed.distinct, fun name type =>
    same.mem_iff.trans (listed.complete name type)⟩

/-- Every operation is answered as the history demands. -/
theorem expects (recorded : Records history table) (request : Request) :
    Expects history request (table.perform request).1 := by
  cases request with
  | declare name type =>
      by_cases bound : name ∈ table.names
      · rw [perform_declare_of_mem type bound]
        exact ⟨(recorded.mem_names_iff name).mp bound, rfl⟩
      · rw [perform_declare_of_not_mem type bound]
        exact fun declared => bound ((recorded.mem_names_iff name).mpr declared)
  | lookup name => exact recorded name
  | isTypeName name =>
      have keyword : (Ty.ofKeyword? name).isSome = true ↔ name = "num" ∨ name = "bool" := by
        by_cases number : name = "num" <;> by_cases bool : name = "bool" <;>
          simp [Ty.ofKeyword?, number, bool]
      change (Ty.ofKeyword? name).isSome || table.lookup name == some .enumType ↔ _
      rw [Bool.or_eq_true, keyword, beq_iff_eq, recorded name .enumType, or_assoc]
  | declaredType name =>
      refine ⟨?_, ?_, fun notNumber notBool => ?_⟩
      · rintro rfl
        rfl
      · rintro rfl
        rfl
      · have plain : Ty.ofKeyword? name = none := by simp [Ty.ofKeyword?, notNumber, notBool]
        rw [← recorded name .enumType, declaredType, plain]
        exact ⟨fun found => if_pos found, fun absent => if_neg absent⟩
  | iterate => exact recorded.lists_sorted

end Records

/-! ## Counting names -/

private theorem ncard_of_nodup {names : List String} {counted : String → Prop}
    (distinct : names.Nodup)
    (members : ∀ name, counted name ↔ name ∈ names) :
    {name | counted name}.ncard = names.length := by
  have same : {name | counted name} = (names.toFinset : Set String) := by
    rw [List.coe_toFinset]
    exact Set.ext members
  rw [same, Set.ncard_coe_finset, List.toFinset_card_of_nodup distinct]

namespace Records

variable {history : List Request} {table : SymbolTable}

theorem size_eq (recorded : Records history table) :
    table.size = {name | Declared history name}.ncard := by
  have counted := ncard_of_nodup table.distinct fun name => (recorded.mem_names_iff name).symm
  rw [counted, size, List.length_map]

theorem variableCount_eq (recorded : Records history table) :
    table.variableCount = {name | ∃ type, FirstDeclared history name type ∧
      type ≠ .enumType ∧ type ≠ .enumValue}.ncard := by
  let kept := table.entries.filter fun entry => entry.2.isVariable
  have isVariable_iff (type : Ty) :
      type.isVariable = true ↔ type ≠ .enumType ∧ type ≠ .enumValue := by
    cases type <;> simp [Ty.isVariable]
  have distinct : (kept.map Prod.fst).Nodup :=
    table.distinct.sublist (List.filter_sublist.map Prod.fst)
  have members (name : String) : (∃ type, FirstDeclared history name type ∧
      type ≠ .enumType ∧ type ≠ .enumValue) ↔ name ∈ kept.map Prod.fst := by
    simp only [kept, List.mem_map, List.mem_filter, isVariable_iff,
      ← recorded.lists_entries.complete, Prod.exists, exists_and_right, exists_eq_right]
  rw [ncard_of_nodup distinct members, List.length_map, variableCount,
    List.countP_eq_length_filter]

end Records

/-! ## Runs -/

private theorem run_append (table : SymbolTable) (earlier later : List Request) :
    table.run (earlier ++ later) =
      ((table.run earlier).1 ++ ((table.run earlier).2.run later).1,
        ((table.run earlier).2.run later).2) := by
  induction earlier generalizing table with
  | nil => rfl
  | cons request rest ih => simp [run, ih]

private theorem length_answers (table : SymbolTable) (history : List Request) :
    (table.run history).1.length = history.length := by
  induction history generalizing table with
  | nil => rfl
  | cons request rest ih => simp [run, ih]

end SymbolTable

open SymbolTable

/-- In every run of operations on an empty table, each operation is answered as those before it
demand: a declaration is refused exactly if its name has been declared before, and then changes
nothing. In the end every name has the type of its first declaration, and the number of names, the
number of variables and the list of all bindings are those of the first declarations. A name is the
name of a type exactly if variables of a definite type can be declared with it. -/
theorem first_declaration_wins (history : List Request) :
    (∀ before request after, history = before ++ request :: after →
      ∃ answer, (empty.run history).1[before.length]? = some answer ∧
        Expects before request answer) ∧
    (∀ name type, Declared history name →
      (empty.run (history ++ [.declare name type])).2 = (empty.run history).2) ∧
    (∀ name type, (empty.run history).2.lookup name = some type ↔
      FirstDeclared history name type) ∧
    (empty.run history).2.size = {name | Declared history name}.ncard ∧
    (empty.run history).2.variableCount = {name | ∃ type, FirstDeclared history name type ∧
      type ≠ .enumType ∧ type ≠ .enumValue}.ncard ∧
    Lists history (empty.run history).2.entries ∧
    Lists history (empty.run history).2.sorted ∧
    (∀ name, (empty.run history).2.isTypeName name = true ↔
      (empty.run history).2.declaredType name ≠ .unknown) := by
  have recorded (history : List Request) : Records history (empty.run history).2 :=
    records_empty.run history
  refine ⟨?_, ?_, recorded history, (recorded history).size_eq, (recorded history).variableCount_eq,
    (recorded history).lists_entries, (recorded history).lists_sorted, ?_⟩
  · intro before request after split
    refine ⟨_, ?_, (recorded before).expects request⟩
    rw [split, run_append, List.getElem?_append_right (length_answers _ _).le, length_answers,
      Nat.sub_self]
    rfl
  · intro name type declared
    rw [run_append]
    change ((empty.run history).2.perform (.declare name type)).2 = _
    rw [perform_declare_of_mem type (((recorded history).mem_names_iff name).mpr declared)]
  · intro name
    exact (empty.run history).2.isTypeName_iff_declaredType_ne

end TreeCheck
