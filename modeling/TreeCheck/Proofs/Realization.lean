import TreeCheck.Proofs.TypingConditions

/-!
# Steps as relations

A step of the walk realizes a relation on tables when it succeeds exactly where the relation holds,
with the same result and the same table afterwards. Counters and log are left out of the relation,
so steps that only count or report disappear from it. Declarations and the labels of cases, which
walk nothing below them, realize their typing rules.
-/

set_option autoImplicit false

namespace TreeCheck

namespace Check

/-- The step succeeds exactly where the relation holds between the table before, the result and the
table afterwards. -/
def Realizes {α : Type} (step : Check α) (relation : SymbolTable → α → SymbolTable → Prop) : Prop :=
  ∀ (walk : Walk) (value : α) (table : SymbolTable),
    (∃ after, step walk = (.ok value, after) ∧ after.session.symbols = table) ↔
      relation walk.session.symbols value table

theorem Realizes.congr {α : Type} {step : Check α}
    {relation other : SymbolTable → α → SymbolTable → Prop} (realized : step.Realizes relation)
    (same : ∀ table value after, relation table value after ↔ other table value after) :
    step.Realizes other :=
  fun walk value table => (realized walk value table).trans (same _ _ _)

theorem realizes_pure {α : Type} (result : α) :
    (pure result : Check α).Realizes fun table value after => value = result ∧ after = table := by
  intro walk value table
  constructor
  · rintro ⟨after, done, rfl⟩
    cases done
    exact ⟨rfl, rfl⟩
  · rintro ⟨rfl, rfl⟩
    exact ⟨walk, rfl, rfl⟩

theorem realizes_fail {α : Type} (fault : Fault) :
    (fail fault : Check α).Realizes fun _ _ _ => False := by
  intro walk value table
  constructor
  · rintro ⟨after, done, -⟩
    cases done
  · exact False.elim

theorem Realizes.bind {α β : Type} {step : Check α} {next : α → Check β}
    {first : SymbolTable → α → SymbolTable → Prop}
    {second : α → SymbolTable → β → SymbolTable → Prop}
    (realized : step.Realizes first) (continued : ∀ value, (next value).Realizes (second value)) :
    (step >>= next).Realizes fun table value after =>
      ∃ between middle, first table between middle ∧ second between middle value after := by
  intro walk value table
  constructor
  · rintro ⟨after, done, rfl⟩
    rw [bind_apply] at done
    cases run : step walk with
    | mk outcome reached =>
        rw [run] at done
        cases outcome with
        | error fault => cases done
        | ok between =>
            exact ⟨between, reached.session.symbols, (realized _ _ _).mp ⟨reached, run, rfl⟩,
              (continued between _ _ _).mp ⟨after, done, rfl⟩⟩
  · rintro ⟨between, middle, holds, continues⟩
    obtain ⟨reached, run, rfl⟩ := (realized walk between middle).mpr holds
    obtain ⟨after, done, rfl⟩ := (continued between reached value table).mpr continues
    exact ⟨after, by rw [bind_of_ok next run, done], rfl⟩

theorem Realizes.emit_bind {α : Type} {next : Unit → Check α}
    {relation : SymbolTable → α → SymbolTable → Prop} (event : Event)
    (continued : (next ()).Realizes relation) : (emit event >>= next).Realizes relation :=
  fun _ value table => continued _ value table

theorem Realizes.count_bind {α : Type} {next : Unit → Check α}
    {relation : SymbolTable → α → SymbolTable → Prop} (update : Metrics → Metrics)
    (continued : (next ()).Realizes relation) : (count update >>= next).Realizes relation :=
  fun _ value table => continued _ value table

theorem Realizes.lookup_bind {α : Type} {next : Option Ty → Check α} (name : String)
    {relation : Option Ty → SymbolTable → α → SymbolTable → Prop}
    (continued : ∀ found, (next found).Realizes (relation found)) :
    (lookup name >>= next).Realizes fun table value after =>
      relation (table.lookup name) table value after :=
  fun walk value table => continued _ walk value table

theorem Realizes.current_bind {α : Type} {next : Session → Check α}
    {relation : SymbolTable → SymbolTable → α → SymbolTable → Prop}
    (continued : ∀ session, (next session).Realizes (relation session.symbols)) :
    (current >>= next).Realizes fun table value after => relation table table value after :=
  fun walk value table => continued _ walk value table

theorem Realizes.guard {α : Type} {condition : Prop} [Decidable condition] {step : Check α}
    {relation : SymbolTable → α → SymbolTable → Prop} (broken : Violation)
    (realized : step.Realizes relation) :
    (if condition then step else reject broken).Realizes fun table value after =>
      condition ∧ relation table value after := by
  by_cases holds : condition
  · rw [if_pos holds]
    exact realized.congr (by simp [holds])
  · rw [if_neg holds]
    exact (realizes_fail _).congr (by simp [holds])

private theorem realizes_identifier (parent : Kind) (index : Nat) (child : Node) :
    (identifier parent index child).Realizes fun table name after =>
      child.identifier? = some name ∧ after = table := by
  rw [identifier]
  cases child.identifier? with
  | none => exact (realizes_fail _).congr (by simp)
  | some name => exact (realizes_pure name).congr (by simp [eq_comm])

theorem realizes_identifierAt (parent : Kind) (children : List Node) (index : Nat) :
    (identifierAt parent children index).Realizes fun table name after =>
      children[index]?.bind Node.identifier? = some name ∧ after = table := by
  rw [identifierAt]
  cases children[index]? with
  | none => exact (realizes_fail _).congr (by simp)
  | some child => exact realizes_identifier parent index child

theorem realizes_declare (name : String) (type : Ty) :
    (declare name type).Realizes fun table _ after => table.Extends [(name, type)] after := by
  intro walk value table
  constructor
  · rintro ⟨after, done, rfl⟩
    rcases declare_cases name type walk with ⟨-, stopped⟩ | ⟨symbols, extended, declared⟩
    · cases stopped.symm.trans done
    · cases declared.symm.trans done
      exact extended
  · intro extended
    rcases declare_cases name type walk with ⟨bound, -⟩ | ⟨symbols, declared, done⟩
    · exact absurd bound (extended.fresh (by simp))
    · exact ⟨_, done, SymbolTable.ext (Eq.trans declared (Eq.symm extended))⟩

theorem realizes_resolve (name : String) :
    (resolve name).Realizes fun table type after =>
      table.lookup name = some type ∧ after = table := by
  refine @Realizes.lookup_bind _ _ name (fun found table type after =>
    found = some type ∧ after = table) fun found => ?_
  cases found with
  | none => exact (realizes_fail _).congr (by simp)
  | some type => exact (realizes_pure type).congr (by simp [eq_comm])

/-! ## Declarations -/

/-- The end of a declaration whose type is one of its children. -/
private theorem realizes_declareTyped (typeName name : String) :
    (do
      let symbols := (← current).symbols
      if symbols.isTypeName typeName then
        emit (.declareVariable name (symbols.declaredType typeName))
        declare name (symbols.declaredType typeName)
      else
        reject (.unknownDeclaredType name typeName) : Check Unit).Realizes
      fun table _ after =>
        ∃ type, table.Denotes typeName type ∧ table.Extends [(name, type)] after := by
  refine (@Realizes.current_bind _ _ (fun symbols table _ after =>
    symbols.isTypeName typeName = true ∧
      table.Extends [(name, symbols.declaredType typeName)] after) fun session => ?_).congr ?_
  · exact (Realizes.emit_bind _ (realizes_declare _ _)).guard _
  · intro table _ after
    constructor
    · rintro ⟨known, extended⟩
      exact ⟨_, SymbolTable.denotes_iff.mpr ⟨known, rfl⟩, extended⟩
    · rintro ⟨type, denoted, extended⟩
      obtain ⟨known, rfl⟩ := SymbolTable.denotes_iff.mp denoted
      exact ⟨known, extended⟩

/-- The end of a declaration whose type, if any, is written on it. -/
private theorem realizes_declareKeyword (typeName : Option String) (name : String) :
    (do
      let symbols := (← current).symbols
      let type := (typeName.map symbols.declaredType).getD .unknown
      emit (.declareVariable name type)
      declare name type : Check Unit).Realizes
      fun table _ after =>
        ∃ type, table.Gives typeName type ∧ table.Extends [(name, type)] after := by
  refine (@Realizes.current_bind _ _ (fun symbols table _ after =>
    table.Extends [(name, (typeName.map symbols.declaredType).getD .unknown)] after)
      fun session => ?_).congr ?_
  · exact Realizes.emit_bind _ (realizes_declare _ _)
  · intro table _ after
    constructor
    · intro extended
      exact ⟨_, SymbolTable.gives_iff.mpr rfl, extended⟩
    · rintro ⟨type, given, extended⟩
      obtain rfl := SymbolTable.gives_iff.mp given
      exact extended

theorem realizes_declareVariable (typeName : Option String) (children : List Node) :
    (declareVariable typeName children).Realizes fun table _ after =>
      HasType table ⟨.declaration typeName, children⟩ .unknown after := by
  rw [declareVariable]
  match children with
  | [] =>
      refine ((realizes_identifierAt _ _ _).bind fun name =>
        realizes_declareKeyword typeName name).congr fun table _ after => ?_
      constructor
      · rintro ⟨name, _, ⟨named, -⟩, -⟩
        cases named
      · intro typed
        cases typed
  | [only] =>
      refine ((realizes_identifierAt _ _ _).bind fun name =>
        realizes_declareKeyword typeName name).congr fun table _ after => ?_
      constructor
      · rintro ⟨name, _, ⟨named, rfl⟩, type, given, extended⟩
        obtain ⟨below, rfl⟩ := Node.identifier?_eq_some_iff.mp named
        exact .declaration given extended
      · intro typed
        cases typed with
        | declaration given extended => exact ⟨_, _, ⟨rfl, rfl⟩, _, given, extended⟩
  | first :: second :: rest =>
      rw [if_pos (by simp)]
      refine ((realizes_identifierAt _ _ _).bind fun typeName => (realizes_identifierAt _ _ _).bind
        fun name => realizes_declareTyped typeName name).congr fun table _ after => ?_
      constructor
      · rintro ⟨typeName, _, ⟨typeNamed, rfl⟩, name, _, ⟨named, rfl⟩, type, denoted, extended⟩
        obtain ⟨typeBelow, rfl⟩ := Node.identifier?_eq_some_iff.mp typeNamed
        obtain ⟨below, rfl⟩ := Node.identifier?_eq_some_iff.mp named
        exact .typedDeclaration denoted extended
      · intro typed
        cases typed with
        | typedDeclaration denoted extended =>
            exact ⟨_, _, ⟨rfl, rfl⟩, _, _, ⟨rfl, rfl⟩, _, denoted, extended⟩

private theorem realizes_declareValues (index : Nat) (children : List Node) :
    (declareValues index children).Realizes fun table _ after =>
      ∃ values : List String, children.map Node.identifier? = values.map some ∧
        table.Extends (values.map fun value => (value, .enumValue)) after := by
  induction children generalizing index with
  | nil =>
      rw [declareValues]
      refine (realizes_pure ()).congr fun table _ after => ?_
      constructor
      · rintro ⟨-, rfl⟩
        exact ⟨[], rfl, .refl _⟩
      · rintro ⟨values, named, extended⟩
        obtain rfl : values = [] := by simpa using named.symm
        exact ⟨rfl, SymbolTable.extends_nil_iff.mp extended⟩
  | cons child rest ih =>
      rw [declareValues]
      refine ((realizes_identifier _ _ _).bind fun value =>
        (realizes_declare value _).bind fun _ => ih (index + 1)).congr fun table _ after => ?_
      constructor
      · rintro ⟨value, _, ⟨named, rfl⟩, _, middle, extended, values, others, extendedAll⟩
        exact ⟨value :: values, by rw [List.map_cons, named, others, List.map_cons],
          extended.trans extendedAll⟩
      · rintro ⟨values, named, extended⟩
        cases values with
        | nil => cases named
        | cons value values =>
            obtain ⟨first, others⟩ := List.cons.inj named
            obtain ⟨middle, bound, extendedAll⟩ :=
              @SymbolTable.Extends.split _ _ [(value, .enumValue)] _ extended
            exact ⟨value, _, ⟨first, rfl⟩, (), middle, bound, values, others, extendedAll⟩

theorem realizes_declareEnum (children : List Node) :
    (declareEnum children).Realizes fun table _ after =>
      HasType table ⟨.enumStmt, children⟩ .unknown after := by
  cases children with
  | nil =>
      refine (realizes_fail _).congr fun table _ after => ⟨False.elim, fun typed => ?_⟩
      cases typed with
      | enumStmt named => cases named
  | cons first values =>
      rw [declareEnum]
      refine ((realizes_identifier _ _ _).bind fun typeName =>
        Realizes.count_bind _ (Realizes.emit_bind _ ((realizes_declare typeName _).bind
          fun _ => realizes_declareValues 1 values))).congr fun table _ after => ?_
      constructor
      · rintro ⟨typeName, _, ⟨named, rfl⟩, _, middle, extended, names, others, extendedAll⟩
        exact .enumStmt (by rw [List.map_cons, named, others, List.map_cons])
          (extended.trans extendedAll)
      · intro typed
        cases typed with
        | @enumStmt _ _ typeName names _ named extended =>
            obtain ⟨first, others⟩ := List.cons.inj named
            obtain ⟨middle, bound, extendedAll⟩ :=
              @SymbolTable.Extends.split _ _ [(typeName, .enumType)] _ extended
            exact ⟨typeName, _, ⟨first, rfl⟩, (), middle, bound, names, others, extendedAll⟩

theorem realizes_caseLabel (subject : Ty) (children : List Node) :
    (caseLabel subject children).Realizes fun table type after =>
      HasTypes (.arm subject) table [⟨.caseStmt, children⟩] [type] after := by
  cases children with
  | nil =>
      refine (realizes_fail _).congr fun table type after => ⟨False.elim, fun typed => ?_⟩
      cases typed with
      | walked walks => cases walks
  | cons label body =>
      refine Realizes.congr ?_ fun table type after => hasTypes_arm_iff.symm
      rcases label with ⟨label, below⟩
      cases label with
      | identifier name =>
          refine (@Realizes.lookup_bind _ _ name (fun found table type after =>
            found.any subject.acceptsCase = true ∧ type = .unknown ∧ after = table)
              fun found => (realizes_pure _).guard _).congr fun table type after => ?_
          exact and_congr_left' SymbolTable.fitsCase_identifier_iff.symm
      | intValue value =>
          refine ((realizes_pure _).guard _).congr fun table type after => ?_
          exact and_congr_left' SymbolTable.fitsCase_integer_iff.symm
      | _ =>
          refine (realizes_fail _).congr fun table type after => ⟨False.elim, ?_⟩
          rintro ⟨⟨⟩, -⟩

end Check

end TreeCheck
