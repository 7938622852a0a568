import Mathlib.Data.List.Induction
import TreeCheck.Proofs.Typing

/-!
# Deciding the conditions of the type system

Beside every condition on types and declared names that the typing rules state stands a function
that the walk computes with. The laws below join the two.
-/

set_option autoImplicit false

namespace TreeCheck

/-! ## Types of several operands -/

/-- Every type of a list is admitted after those before it. -/
def Admission.AdmitsAll (admitted : Admission) : List Ty → List Ty → Prop
  | _, [] => True
  | earlier, type :: rest =>
      admitted earlier type = true ∧ AdmitsAll admitted (earlier ++ [type]) rest

theorem Admission.admitsAll_any (earlier types : List Ty) : any.AdmitsAll earlier types := by
  induction types generalizing earlier with
  | nil => trivial
  | cons type types ih => exact ⟨rfl, ih _⟩

theorem Admission.admitsAll_numbers_iff {earlier types : List Ty} :
    numbers.AdmitsAll earlier types ↔ ∀ type ∈ types, type = .number := by
  induction types generalizing earlier with
  | nil => simp [AdmitsAll]
  | cons type types ih => rw [AdmitsAll, ih, List.forall_mem_cons, numbers, beq_iff_eq]

namespace Ty

private theorem filter_isKnown_eq_nil {types : List Ty}
    (unknown : ∀ type ∈ types, type = .unknown) :
    types.filter isKnown = [] := by
  rw [List.filter_eq_nil_iff]
  intro type member
  rw [unknown type member, isKnown_unknown]
  exact Bool.false_ne_true

private theorem lastKnown_append_of_unknown {types later : List Ty}
    (unknown : ∀ type ∈ later, type = .unknown) : lastKnown (types ++ later) = lastKnown types := by
  rw [lastKnown, List.filter_append, filter_isKnown_eq_nil unknown, List.append_nil, lastKnown]

private theorem lastKnown_concat_of_known {types : List Ty} {type : Ty} (known : type ≠ .unknown) :
    lastKnown (types ++ [type]) = type := by
  rw [lastKnown, List.filter_append, List.filter_cons_of_pos (isKnown_iff.mpr known),
    List.filter_nil, List.getLast?_concat, Option.getD_some]

private theorem isLastKnown_lastKnown (types : List Ty) : IsLastKnown types (lastKnown types) := by
  induction types using List.reverseRecOn with
  | nil => exact .absent (by simp)
  | append_singleton front last ih =>
      by_cases unknown : last = .unknown
      · have final : ∀ type ∈ [last], type = .unknown := by simp [unknown]
        rw [lastKnown_append_of_unknown final]
        generalize lastKnown front = type at ih
        cases ih with
        | absent absent => exact .absent (List.forall_mem_append.mpr ⟨absent, final⟩)
        | present known absent =>
            rw [List.append_assoc, List.cons_append]
            exact .present known (List.forall_mem_append.mpr ⟨absent, final⟩)
      · rw [lastKnown_concat_of_known unknown]
        exact .present unknown (by simp)

theorem isLastKnown_iff {types : List Ty} {type : Ty} :
    IsLastKnown types type ↔ lastKnown types = type := by
  constructor
  · intro last
    cases last with
    | absent unknown => exact @lastKnown_append_of_unknown [] _ unknown
    | @present before later _ known unknown =>
        have split : before ++ type :: later = (before ++ [type]) ++ later := by simp
        rw [split, lastKnown_append_of_unknown unknown, lastKnown_concat_of_known known]
  · rintro rfl
    exact isLastKnown_lastKnown types

@[simp] theorem firstKnown_nil : firstKnown [] = .unknown := rfl

@[simp] theorem firstKnown_cons_unknown (rest : List Ty) :
    firstKnown (.unknown :: rest) = firstKnown rest := rfl

theorem firstKnown_cons_of_known {type : Ty} (known : type ≠ .unknown) (rest : List Ty) :
    firstKnown (type :: rest) = type := by
  rw [firstKnown, List.find?_cons_of_pos (isKnown_iff.mpr known), Option.getD_some]

theorem firstKnown_append_of_unknown {before later : List Ty}
    (unknown : ∀ type ∈ before, type = .unknown) :
    firstKnown (before ++ later) = firstKnown later := by
  induction before with
  | nil => rfl
  | cons type before ih =>
      obtain ⟨rfl, rest⟩ := List.forall_mem_cons.mp unknown
      exact ih rest

private theorem firstKnown_append_of_known {before : List Ty} (known : firstKnown before ≠ .unknown)
    (later : List Ty) : firstKnown (before ++ later) = firstKnown before := by
  induction before with
  | nil => exact absurd rfl known
  | cons type before ih =>
      by_cases unknown : type = .unknown
      · subst unknown
        exact ih known
      · rw [List.cons_append, firstKnown_cons_of_known unknown, firstKnown_cons_of_known unknown]

/-- Once a definite type has been found, a boolean chain asks for it again and again. -/
theorem admitsAll_alike_of_known {earlier types : List Ty}
    (known : firstKnown earlier ≠ .unknown) :
    Admission.alike.AdmitsAll earlier types ↔ ∀ type ∈ types, type = firstKnown earlier := by
  induction types generalizing earlier with
  | nil => simp [Admission.AdmitsAll]
  | cons type types ih =>
      have kept := firstKnown_append_of_known known [type]
      rw [Admission.AdmitsAll, ih (by rwa [kept]), kept, List.forall_mem_cons, Admission.alike,
        isKnown_iff.mpr known, Bool.not_true, Bool.false_or, beq_iff_eq]

/-- Before that, it asks nothing. -/
theorem isShared_iff_of_unknown {earlier types : List Ty} {type : Ty}
    (unknown : ∀ other ∈ earlier, other = .unknown) :
    IsShared types type ↔ Admission.alike.AdmitsAll earlier types ∧ firstKnown types = type := by
  induction types generalizing earlier with
  | nil =>
      constructor
      · rintro ⟨⟩
        exact ⟨trivial, rfl⟩
      · rintro ⟨-, rfl⟩
        exact .absent
  | cons first types ih =>
      have undecided : firstKnown earlier = .unknown := by
        simpa using @firstKnown_append_of_unknown earlier [] unknown
      have admitted : Admission.alike earlier first = true := by
        rw [Admission.alike, undecided]
        rfl
      by_cases indefinite : first = .unknown
      · subst indefinite
        have longer : ∀ other ∈ earlier ++ [.unknown], other = .unknown :=
          List.forall_mem_append.mpr ⟨unknown, by simp⟩
        rw [Admission.AdmitsAll, firstKnown_cons_unknown, and_assoc, ← ih longer]
        constructor
        · intro shared
          cases shared with
          | indefinite shared => exact ⟨admitted, shared⟩
          | definite known => exact absurd rfl known
        · rintro ⟨-, shared⟩
          exact .indefinite shared
      · have found : firstKnown (earlier ++ [first]) = first := by
          rw [firstKnown_append_of_unknown unknown, firstKnown_cons_of_known indefinite]
        rw [Admission.AdmitsAll, admitsAll_alike_of_known (by rwa [found]), found,
          firstKnown_cons_of_known indefinite]
        constructor
        · intro shared
          cases shared with
          | indefinite => exact absurd rfl indefinite
          | definite _ repeated => exact ⟨⟨admitted, repeated⟩, rfl⟩
        · rintro ⟨⟨-, repeated⟩, rfl⟩
          exact .definite indefinite repeated

theorem isShared_iff {types : List Ty} {type : Ty} :
    IsShared types type ↔ Admission.alike.AdmitsAll [] types ∧ firstKnown types = type :=
  isShared_iff_of_unknown (by simp)

end Ty

theorem Comparison.joins_nil_iff {operator : Option Comparison} {type : Ty} :
    Joins operator [] type ↔ type = .unknown := by
  constructor
  · intro joined
    cases joined with
    | single _ last => exact (Ty.isLastKnown_iff.mp last).symm
    | order _ _ several => exact absurd several (by simp)
  · rintro rfl
    exact .single (by simp) (.absent (by simp))

theorem Comparison.joins_singleton_iff {operator : Option Comparison} {operand type : Ty} :
    Joins operator [operand] type ↔ type = operand := by
  have passed : Ty.lastKnown [operand] = operand := by cases operand <;> rfl
  constructor
  · intro joined
    cases joined with
    | single _ last => rw [← Ty.isLastKnown_iff.mp last, passed]
    | order _ _ several => exact absurd several (by simp)
  · rintro rfl
    exact .single (by simp) (Ty.isLastKnown_iff.mpr passed)

theorem Comparison.admits_equality_iff {operator : Comparison} {first : Ty} {rest : List Ty}
    (equality : operator = .equal ∨ operator = .notEqual) :
    admits (some operator) first rest = true ↔
      (first = .number ∨ first = .bool) ∧ ∀ type ∈ rest, type = first := by
  have operand : first.isEqualityOperand = true ↔ first = .number ∨ first = .bool := by
    cases first <;> simp [Ty.isEqualityOperand]
  rcases equality with rfl | rfl <;>
    rw [admits, Bool.and_eq_true, operand, List.all_eq_true] <;> simp only [beq_iff_eq]

theorem Comparison.admits_order_iff {operator : Option Comparison} {first : Ty} {rest : List Ty}
    (notEqual : operator ≠ some .equal) (notUnequal : operator ≠ some .notEqual) :
    admits operator first rest = true ↔ ∀ type ∈ first :: rest, type = .number := by
  have order : admits operator first rest = (first :: rest).all (· == .number) := by
    rcases operator with _ | operator
    · rfl
    · cases operator with
      | equal => exact absurd rfl notEqual
      | notEqual => exact absurd rfl notUnequal
      | _ => rfl
  rw [order, List.all_eq_true]
  simp only [beq_iff_eq]

theorem Comparison.joins_several_iff {operator : Option Comparison} {first second type : Ty}
    {rest : List Ty} :
    Joins operator (first :: second :: rest) type ↔
      admits operator first (second :: rest) = true ∧ type = .bool := by
  constructor
  · intro joined
    cases joined with
    | single one => exact absurd one (by simp)
    | equality equality operand repeated =>
        exact ⟨(admits_equality_iff equality).mpr ⟨operand, repeated⟩, rfl⟩
    | order notEqual notUnequal _ numbers =>
        exact ⟨(admits_order_iff notEqual notUnequal).mpr numbers, rfl⟩
  · rintro ⟨admitted, rfl⟩
    by_cases equality : operator = some .equal ∨ operator = some .notEqual
    · rcases equality with rfl | rfl
      · obtain ⟨operand, repeated⟩ := (admits_equality_iff (.inl rfl)).mp admitted
        exact .equality (.inl rfl) operand repeated
      · obtain ⟨operand, repeated⟩ := (admits_equality_iff (.inr rfl)).mp admitted
        exact .equality (.inr rfl) operand repeated
    · obtain ⟨notEqual, notUnequal⟩ := not_or.mp equality
      exact .order notEqual notUnequal (by simp)
        ((admits_order_iff notEqual notUnequal).mp admitted)

theorem Ty.isSwitchable_iff {type : Ty} :
    type.isSwitchable = true ↔ type = .number ∨ type = .enumVar := by
  cases type <;> simp [isSwitchable]

theorem Ty.isArithmetic_single_iff {types : List Ty} {type : Ty} (one : types.length ≤ 1) :
    IsArithmetic types type ↔ lastKnown types = type := by
  rw [← isLastKnown_iff]
  constructor
  · intro arithmetic
    cases arithmetic with
    | single _ last => exact last
    | chain several => omega
  · exact .single one

theorem Ty.isArithmetic_several_iff {types : List Ty} {type : Ty} (several : ¬ types.length ≤ 1) :
    IsArithmetic types type ↔ (∀ operand ∈ types, operand = .number) ∧ type = .number := by
  constructor
  · intro arithmetic
    cases arithmetic with
    | single one => exact absurd one several
    | chain _ numbers => exact ⟨numbers, rfl⟩
  · rintro ⟨numbers, rfl⟩
    exact .chain (by omega) numbers

/-! ## Declared names -/

namespace SymbolTable

theorem denotes_iff {table : SymbolTable} {typeName : String} {type : Ty} :
    table.Denotes typeName type ↔
      table.isTypeName typeName = true ∧ table.declaredType typeName = type := by
  rw [isTypeName, declaredType]
  constructor
  · intro denoted
    cases denoted with
    | number => exact ⟨rfl, rfl⟩
    | bool => exact ⟨rfl, rfl⟩
    | enumeration notNumber notBool found =>
        simp [Ty.ofKeyword?, notNumber, notBool, found]
  · intro denoted
    by_cases number : typeName = "num"
    · subst number
      obtain ⟨-, rfl⟩ := denoted
      exact .number
    · by_cases bool : typeName = "bool"
      · subst bool
        obtain ⟨-, rfl⟩ := denoted
        exact .bool
      · have plain : Ty.ofKeyword? typeName = none := by simp [Ty.ofKeyword?, number, bool]
        rw [plain, Option.isSome_none, Bool.false_or, beq_iff_eq] at denoted
        obtain ⟨found, rfl⟩ := denoted
        simp only [found, ↓reduceIte]
        exact .enumeration number bool found

private theorem declaredType_of_not_isTypeName {table : SymbolTable} {typeName : String}
    (stray : table.isTypeName typeName = false) : table.declaredType typeName = .unknown := by
  rw [isTypeName, Bool.or_eq_false_iff, Option.isSome_eq_false_iff, Option.isNone_iff_eq_none,
    beq_eq_false_iff_ne] at stray
  rw [declaredType, stray.1]
  exact if_neg stray.2

theorem isTypeName_iff_declaredType_ne {table : SymbolTable} {typeName : String} :
    table.isTypeName typeName = true ↔ table.declaredType typeName ≠ .unknown := by
  constructor
  · intro known
    have denoted : table.Denotes typeName (table.declaredType typeName) :=
      denotes_iff.mpr ⟨known, rfl⟩
    generalize table.declaredType typeName = type at denoted
    cases denoted with
    | number | bool | enumeration => exact Ty.noConfusion
  · intro definite
    cases known : table.isTypeName typeName with
    | true => rfl
    | false => exact absurd (declaredType_of_not_isTypeName known) definite

theorem gives_iff {table : SymbolTable} {typeName : Option String} {type : Ty} :
    table.Gives typeName type ↔ (typeName.map table.declaredType).getD .unknown = type := by
  constructor
  · intro given
    cases given with
    | missing => rfl
    | named denoted => exact (denotes_iff.mp denoted).2
    | @stray typeName stray =>
        cases known : table.isTypeName typeName with
        | true => exact absurd (denotes_iff.mpr ⟨known, rfl⟩) (stray _)
        | false => exact declaredType_of_not_isTypeName known
  · rintro rfl
    cases typeName with
    | none => exact .missing
    | some typeName =>
        cases known : table.isTypeName typeName with
        | true => exact .named (denotes_iff.mpr ⟨known, rfl⟩)
        | false =>
            have undenoted : ∀ type, ¬ table.Denotes typeName type := by
              intro type denoted
              rw [(denotes_iff.mp denoted).1] at known
              cases known
            rw [Option.map_some, Option.getD_some, declaredType_of_not_isTypeName known]
            exact .stray undenoted

theorem fitsCase_identifier_iff {table : SymbolTable} {subject : Ty} {name : String}
    {below : List Node} :
    table.FitsCase subject ⟨.identifier name, below⟩ ↔
      (table.lookup name).any subject.acceptsCase = true := by
  constructor
  · intro fits
    cases fits with
    | identifier bound accepted => rw [bound, Option.any_some, accepted]
  · intro accepted
    cases bound : table.lookup name with
    | none =>
        rw [bound] at accepted
        cases accepted
    | some type =>
        rw [bound] at accepted
        exact .identifier bound accepted

theorem fitsCase_integer_iff {table : SymbolTable} {subject : Ty} {value : Int64}
    {below : List Node} :
    table.FitsCase subject ⟨.intValue value, below⟩ ↔ subject.acceptsCase .number = true := by
  constructor
  · intro fits
    cases fits with
    | integer accepted => exact accepted
  · exact .integer

end SymbolTable

end TreeCheck
