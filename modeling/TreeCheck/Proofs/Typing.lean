import TreeCheck.Proofs.Steps

/-!
# The type system

What it means for a tree to be well typed, apart from how a walk decides it. A judgement
`HasType table node type after` reads: where the names of `table` are declared, `node` has the type
`type` and leaves the names of `after` declared. There is a rule for every kind of node, and none
for a program below the root or a case outside a switch. The rules count nothing, report nothing and
do not say which of several defects comes first.
-/

set_option autoImplicit false

namespace TreeCheck

/-! ## Types of several operands -/

/-- The last definite type of a list, and no definite type when there is none. -/
inductive Ty.IsLastKnown : List Ty → Ty → Prop where
  | absent {types : List Ty} :
      (∀ type ∈ types, type = .unknown) → IsLastKnown types .unknown
  | present {before later : List Ty} {type : Ty} :
      type ≠ .unknown → (∀ other ∈ later, other = .unknown) →
      IsLastKnown (before ++ type :: later) type

/-- The type shared by the operands of a boolean chain: nothing is asked of the operands before the
first definite type, and those after it repeat it. -/
inductive Ty.IsShared : List Ty → Ty → Prop where
  | absent : IsShared [] .unknown
  | indefinite {types : List Ty} {type : Ty} :
      IsShared types type → IsShared (.unknown :: types) type
  | definite {types : List Ty} {type : Ty} :
      type ≠ .unknown → (∀ other ∈ types, other = type) → IsShared (type :: types) type

/-- The type of a sum or product, from the types of its operands. -/
inductive Ty.IsArithmetic : List Ty → Ty → Prop where
  | single {types : List Ty} {type : Ty} :
      types.length ≤ 1 → IsLastKnown types type → IsArithmetic types type
  | chain {types : List Ty} :
      2 ≤ types.length → (∀ type ∈ types, type = .number) → IsArithmetic types .number

/-- The type of a comparison, from the types of its operands. -/
inductive Comparison.Joins : Option Comparison → List Ty → Ty → Prop where
  | single {operator : Option Comparison} {types : List Ty} {type : Ty} :
      types.length ≤ 1 → Ty.IsLastKnown types type → Joins operator types type
  | equality {operator : Comparison} {first second : Ty} {rest : List Ty} :
      operator = .equal ∨ operator = .notEqual → first = .number ∨ first = .bool →
      (∀ type ∈ second :: rest, type = first) →
      Joins (some operator) (first :: second :: rest) .bool
  | order {operator : Option Comparison} {types : List Ty} :
      operator ≠ some .equal → operator ≠ some .notEqual → 2 ≤ types.length →
      (∀ type ∈ types, type = .number) → Joins operator types .bool

/-! ## Declared names -/

namespace SymbolTable

/-- The variables of a type go by its name. Keywords win over enumerations of the same name. -/
inductive Denotes (table : SymbolTable) : String → Ty → Prop where
  | number : Denotes table "num" .number
  | bool : Denotes table "bool" .bool
  | enumeration {name : String} :
      name ≠ "num" → name ≠ "bool" → table.lookup name = some .enumType →
      Denotes table name .enumVar

/-- The type of a variable that is declared with a type written on the declaration. A missing type
and a type that does not exist are tolerated. -/
inductive Gives (table : SymbolTable) : Option String → Ty → Prop where
  | missing : Gives table none .unknown
  | named {typeName : String} {type : Ty} :
      table.Denotes typeName type → Gives table (some typeName) type
  | stray {typeName : String} :
      (∀ type, ¬ table.Denotes typeName type) → Gives table (some typeName) .unknown

/-- The label of a case fits a switch on `subject`. -/
inductive FitsCase (table : SymbolTable) (subject : Ty) : Node → Prop where
  | identifier {name : String} {type : Ty} {below : List Node} :
      table.lookup name = some type → subject.acceptsCase type = true →
      FitsCase table subject ⟨.identifier name, below⟩
  | integer {value : Int64} {below : List Node} :
      subject.acceptsCase .number = true → FitsCase table subject ⟨.intValue value, below⟩

end SymbolTable

/-! ## The judgement -/

mutual

/-- A well-typed node. -/
inductive HasType : SymbolTable → Node → Ty → SymbolTable → Prop where
  | declaration {table after : SymbolTable} {typeName : Option String} {name : String} {type : Ty}
      {below : List Node} :
      table.Gives typeName type → table.Extends [(name, type)] after →
      HasType table ⟨.declaration typeName, [⟨.identifier name, below⟩]⟩ .unknown after
  | typedDeclaration {table after : SymbolTable} {keyword : Option String}
      {typeName name : String} {type : Ty} {typeBelow below rest : List Node} :
      table.Denotes typeName type → table.Extends [(name, type)] after →
      HasType table
        ⟨.declaration keyword,
          ⟨.identifier typeName, typeBelow⟩ :: ⟨.identifier name, below⟩ :: rest⟩ .unknown after
  | enumStmt {table after : SymbolTable} {typeName : String} {values : List String}
      {children : List Node} :
      children.map Node.identifier? = (typeName :: values).map some →
      table.Extends ((typeName, .enumType) :: values.map fun value => (value, .enumValue)) after →
      HasType table ⟨.enumStmt, children⟩ .unknown after
  | block {table after : SymbolTable} {children : List Node} {types : List Ty} {type : Ty} :
      HasTypes .plain table children types after → Ty.IsLastKnown types type →
      HasType table ⟨.block, children⟩ type after
  | stmt {table after : SymbolTable} {children : List Node} {types : List Ty} {type : Ty} :
      HasTypes .plain table children types after → Ty.IsLastKnown types type →
      HasType table ⟨.stmt, children⟩ type after
  | expr {table after : SymbolTable} {children : List Node} {types : List Ty} {type : Ty} :
      HasTypes .plain table children types after → Ty.IsLastKnown types type →
      HasType table ⟨.expr, children⟩ type after
  | genValue {table after : SymbolTable} {children : List Node} {types : List Ty} {type : Ty} :
      HasTypes .value table children types after → Ty.IsLastKnown types type →
      HasType table ⟨.genValue, children⟩ type after
  | ifStmt {table middle after : SymbolTable} {condition : Node} {bodies : List Node}
      {types : List Ty} :
      HasType table condition .bool middle → HasTypes .plain middle bodies types after →
      HasType table ⟨.ifStmt, condition :: bodies⟩ .unknown after
  | whileStmt {table middle after : SymbolTable} {condition : Node} {bodies : List Node}
      {types : List Ty} :
      HasType table condition .bool middle → HasTypes .plain middle bodies types after →
      HasType table ⟨.whileStmt, condition :: bodies⟩ .unknown after
  | assignStmt {table after : SymbolTable} {name : String} {target type : Ty} {value : Node}
      {below rest : List Node} :
      table.lookup name = some target → HasType table value type after →
      target = type ∨ (target = .enumVar ∧ type = .enumValue) →
      HasType table ⟨.assignStmt, ⟨.identifier name, below⟩ :: value :: rest⟩ .unknown after
  | switchStmt {table after : SymbolTable} {name : String} {subject : Ty} {below arms : List Node}
      {types : List Ty} :
      table.lookup name = some subject → subject = .number ∨ subject = .enumVar →
      HasTypes (.arm subject) table arms types after →
      HasType table ⟨.switchStmt, ⟨.identifier name, below⟩ :: arms⟩ .unknown after
  | compExpr {table after : SymbolTable} {operator : Option Comparison} {children : List Node}
      {types : List Ty} {type : Ty} :
      HasTypes .plain table children types after → Comparison.Joins operator types type →
      HasType table ⟨.compExpr operator, children⟩ type after
  | addExpr {table after : SymbolTable} {children : List Node} {types : List Ty} {type : Ty} :
      HasTypes .plain table children types after → Ty.IsArithmetic types type →
      HasType table ⟨.addExpr, children⟩ type after
  | mulExpr {table after : SymbolTable} {children : List Node} {types : List Ty} {type : Ty} :
      HasTypes .plain table children types after → Ty.IsArithmetic types type →
      HasType table ⟨.mulExpr, children⟩ type after
  | boolExpr {table after : SymbolTable} {tokens : List String} {children : List Node}
      {types : List Ty} {type : Ty} :
      HasTypes .plain table children types after → Ty.IsShared types type →
      HasType table ⟨.boolExpr tokens, children⟩ (if tokens = [] then type else .bool) after
  | notExpr {table after : SymbolTable} {children : List Node} {types : List Ty} {type : Ty} :
      HasTypes .plain table children types after → Ty.IsLastKnown types type →
      HasType table ⟨.notExpr [], children⟩ type after
  | negation {table after : SymbolTable} {tokens : List String} {operand : Node}
      {rest : List Node} :
      tokens ≠ [] → HasType table operand .bool after →
      HasType table ⟨.notExpr tokens, operand :: rest⟩ .bool after
  | unaExpr {table after : SymbolTable} {tokens : List String} {children : List Node}
      {types : List Ty} {type : Ty} :
      HasTypes .plain table children types after → Ty.IsLastKnown types type →
      HasType table ⟨.unaExpr tokens, children⟩ type after
  | boolValue {table : SymbolTable} {value : Bool} {below : List Node} :
      HasType table ⟨.boolValue value, below⟩ .bool table
  | intValue {table : SymbolTable} {value : Int64} {below : List Node} :
      HasType table ⟨.intValue value, below⟩ .number table
  | identifier {table : SymbolTable} {name : String} {below : List Node} :
      HasType table ⟨.identifier name, below⟩ .unknown table

/-- Well-typed children, from left to right. Each finds the names declared by those before it. -/
inductive HasTypes : Position → SymbolTable → List Node → List Ty → SymbolTable → Prop where
  | nil {position : Position} {table : SymbolTable} : HasTypes position table [] [] table
  | walked {position : Position} {table middle after : SymbolTable} {child : Node} {type : Ty}
      {rest : List Node} {types : List Ty} :
      position.walks child.label = true → HasType table child type middle →
      HasTypes position middle rest types after →
      HasTypes position table (child :: rest) (type :: types) after
  | value {table after : SymbolTable} {name : String} {type : Ty} {below rest : List Node}
      {types : List Ty} :
      table.lookup name = some type → HasTypes .value table rest types after →
      HasTypes .value table (⟨.identifier name, below⟩ :: rest) (type :: types) after
  | arm {table after : SymbolTable} {subject : Ty} {label : Node} {body rest : List Node}
      {types : List Ty} :
      table.FitsCase subject label → HasTypes (.arm subject) table rest types after →
      HasTypes (.arm subject) table (⟨.caseStmt, label :: body⟩ :: rest) (.unknown :: types) after

end

/-- A well-typed program. -/
inductive WellTyped : SymbolTable → Node → SymbolTable → Prop where
  | program {table after : SymbolTable} {items : List Node} {types : List Ty} :
      HasTypes .plain table items types after → WellTyped table ⟨.program, items⟩ after

/-! ## One child at a time -/

theorem hasTypes_cons_iff {position : Position} {table after : SymbolTable} {child : Node}
    {rest : List Node} {types : List Ty} :
    HasTypes position table (child :: rest) types after ↔
      ∃ type later middle, types = type :: later ∧
        HasTypes position table [child] [type] middle ∧
        HasTypes position middle rest later after := by
  constructor
  · intro typed
    cases typed with
    | walked walks typed others => exact ⟨_, _, _, rfl, .walked walks typed .nil, others⟩
    | value bound others => exact ⟨_, _, _, rfl, .value bound .nil, others⟩
    | arm fits others => exact ⟨_, _, _, rfl, .arm fits .nil, others⟩
  · rintro ⟨type, later, middle, rfl, typed, others⟩
    cases typed with
    | walked walks typed none =>
        cases none
        exact .walked walks typed others
    | value bound none =>
        cases none
        exact .value bound others
    | arm fits none =>
        cases none
        exact .arm fits others

theorem hasTypes_walked_iff {position : Position} {table after : SymbolTable} {child : Node}
    {type : Ty} (walks : position.walks child.label = true) :
    HasTypes position table [child] [type] after ↔ HasType table child type after := by
  constructor
  · intro typed
    cases typed with
    | walked _ typed none =>
        cases none
        exact typed
    | value => cases walks
    | arm => cases walks
  · intro typed
    exact .walked walks typed .nil

theorem hasTypes_value_iff {table after : SymbolTable} {name : String} {below : List Node}
    {type : Ty} :
    HasTypes .value table [⟨.identifier name, below⟩] [type] after ↔
      table.lookup name = some type ∧ after = table := by
  constructor
  · intro typed
    cases typed with
    | walked walks => cases walks
    | value bound none =>
        cases none
        exact ⟨bound, rfl⟩
  · rintro ⟨bound, rfl⟩
    exact .value bound .nil

theorem hasTypes_arm_iff {table after : SymbolTable} {subject : Ty} {label : Node}
    {body : List Node} {type : Ty} :
    HasTypes (.arm subject) table [⟨.caseStmt, label :: body⟩] [type] after ↔
      table.FitsCase subject label ∧ type = .unknown ∧ after = table := by
  constructor
  · intro typed
    cases typed with
    | walked walks => cases walks
    | arm fits none =>
        cases none
        exact ⟨fits, rfl, rfl⟩
  · rintro ⟨fits, rfl, rfl⟩
    exact .arm fits .nil

theorem HasTypes.length_eq {position : Position} {table after : SymbolTable}
    {children : List Node} {types : List Ty}
    (typed : HasTypes position table children types after) :
    types.length = children.length := by
  induction children generalizing table types with
  | nil =>
      cases typed
      rfl
  | cons child rest ih =>
      obtain ⟨type, later, middle, rfl, -, others⟩ := hasTypes_cons_iff.mp typed
      rw [List.length_cons, List.length_cons, ih others]

end TreeCheck
