import TreeCheck.Check.Session
import TreeCheck.Node.Basic

/-!
# The rules of the language

One depth-first walk checks a tree: `visit` applies the rule of a node, which says which children
are walked and what their types must be, and `visitEach` walks a list of children from left to
right. The type of a statement is `Ty.unknown`.

Some children are not walked but read by their parent. `Position` says how a list of children is
read: an identifier below a value position is looked up, and a case below a switch is judged by its
label alone, so the body of a case is never checked.
-/

set_option autoImplicit false

namespace TreeCheck

/-! ## Judging types -/

def Ty.lastKnown (types : List Ty) : Ty :=
  (types.filter Ty.isKnown).getLast?.getD .unknown

def Ty.firstKnown (types : List Ty) : Ty :=
  (types.find? Ty.isKnown).getD .unknown

/-- A condition on the type of an operand, given the types of the operands before it. -/
abbrev Admission := List Ty → Ty → Bool

namespace Admission

def any : Admission :=
  fun _ _ => true

def numbers : Admission :=
  fun _ type => type == .number

/-- Every operand has the first definite type found among the operands before it. -/
def alike : Admission :=
  fun earlier type => !(Ty.firstKnown earlier).isKnown || type == Ty.firstKnown earlier

end Admission

/-- Whether the operands of a comparison fit its operator: equality joins numbers or booleans of one
type, the other operators join numbers, and so do operands without an operator. -/
def Comparison.admits (operator : Option Comparison) (first : Ty) (rest : List Ty) : Bool :=
  match operator with
  | some .equal | some .notEqual => first.isEqualityOperand && rest.all (· == first)
  | _ => (first :: rest).all (· == .number)

/-! ## Reading children -/

/-- How the children of a node are read. -/
inductive Position
  /-- Every child is walked. -/
  | plain
  /-- Identifiers are looked up, other children are walked. -/
  | value
  /-- Cases are judged by their label against the type switched on, other children are walked. -/
  | arm (subject : Ty)
deriving DecidableEq, Repr

namespace Check

def identifier (parent : Kind) (index : Nat) (child : Node) : Check String :=
  match child.identifier? with
  | some name => return name
  | none => malformed (.notIdentifier parent index child.kind)

def identifierAt (parent : Kind) (children : List Node) (index : Nat) : Check String :=
  match children[index]? with
  | some child => identifier parent index child
  | none => malformed (.missingChild parent index)

/-! ## Declarations -/

/-- Binds a variable. A declaration with one child has its type on the node, as a keyword or the
name of an enumeration, and tolerates a type that does not exist; one with more children has an
existing type as its first child and the variable as its second. -/
def declareVariable (typeName : Option String) (children : List Node) : Check Unit := do
  if children.length > 1 then
    let enumType ← identifierAt .declaration children 0
    let name ← identifierAt .declaration children 1
    let symbols := (← current).symbols
    if symbols.isTypeName enumType then
      emit (.declareVariable name (symbols.declaredType enumType))
      declare name (symbols.declaredType enumType)
    else
      reject (.unknownDeclaredType name enumType)
  else
    let name ← identifierAt .declaration children 0
    let symbols := (← current).symbols
    let type := (typeName.map symbols.declaredType).getD .unknown
    emit (.declareVariable name type)
    declare name type

def declareValues (index : Nat) : List Node → Check Unit
  | [] => return ()
  | child :: rest => do
    declare (← identifier .enumStmt index child) .enumValue
    declareValues (index + 1) rest

/-- Binds an enumeration and its values. The values are counted before any name is bound. -/
def declareEnum : List Node → Check Unit
  | [] => malformed (.missingChild .enumStmt 0)
  | first :: values => do
    let typeName ← identifier .enumStmt 0 first
    count (·.addEnumValues values.length)
    emit (.declareEnum typeName values.length)
    declare typeName .enumType
    declareValues 1 values

/-! ## Cases -/

/-- Judges the label of a case, its first child, by the type switched on. Like a statement, a case
has no type of its own. -/
def caseLabel (subject : Ty) : List Node → Check Ty
  | [] => malformed (.missingChild .caseStmt 0)
  | label :: _ =>
    match label.label with
    | .identifier name => do
      let type ← lookup name
      if type.any subject.acceptsCase then return .unknown
      else reject (.invalidCaseType (.identifier name))
    | .intValue value =>
      if subject.acceptsCase .number then return .unknown
      else reject (.invalidCaseType (.integer value))
    | other => malformed (.caseLabel other.kind)

/-! ## The walk -/

mutual

/-- Applies the rule of a node and returns the type of the node. -/
def visit : Node → Check Ty
  | ⟨label, children⟩ => do
    emit (.visit label.kind children.length)
    match label with
    | .program => malformed .nestedProgram
    | .caseStmt => malformed .strayCase
    | .declaration typeName => do
      declareVariable typeName children
      return .unknown
    | .enumStmt => do
      declareEnum children
      return .unknown
    | .block | .stmt | .expr => do
      return Ty.lastKnown (← visitEach .plain .any [] children)
    | .genValue => do
      return Ty.lastKnown (← visitEach .value .any [] children)
    | .ifStmt => do
      count (·.addIf)
      if children.isEmpty then malformed (.missingChild .ifStmt 0)
      else
        let types ← visitEach .plain .any [] children
        if types.head? = some .bool then return .unknown
        else reject .invalidConditionType
    | .whileStmt => do
      count (·.addWhile)
      if children.isEmpty then malformed (.missingChild .whileStmt 0)
      else
        let types ← visitEach .plain .any [] children
        if types.head? = some .bool then return .unknown
        else reject .invalidConditionType
    | .assignStmt =>
      match children with
      | [] => malformed (.missingChild .assignStmt 0)
      | target :: rest => do
        let name ← identifier .assignStmt 0 target
        let targetType ← lookup name
        match rest with
        | [] => malformed (.missingChild .assignStmt 1)
        | value :: _ => do
          let type ← visit value
          if targetType.any (·.acceptsAssignment type) then return .unknown
          else reject (.invalidAssignmentType name)
    | .switchStmt =>
      match children with
      | [] => malformed (.missingChild .switchStmt 0)
      | subject :: arms => do
        let name ← identifier .switchStmt 0 subject
        match (← lookup name).filter Ty.isSwitchable with
        | none => reject (.invalidSwitchType name)
        | some type => do
          let _ ← visitEach (.arm type) .any [] arms
          return .unknown
    | .compExpr operator => do
      match ← visitEach .plain .any [] children with
      | [] => return .unknown
      | [type] => return type
      | first :: rest => do
        count (·.addOperators rest.length)
        if Comparison.admits operator first rest then return .bool
        else reject .invalidExpressionType
    | .addExpr | .mulExpr =>
      if children.length ≤ 1 then do
        return Ty.lastKnown (← visitEach .plain .any [] children)
      else do
        count (·.addOperators 1)
        let _ ← visitEach .plain .numbers [] children
        return .number
    | .boolExpr tokens => do
      let types ← visitEach .plain .alike [] children
      if tokens.isEmpty then return Ty.firstKnown types
      else
        count (·.addOperators 1)
        return .bool
    | .notExpr tokens =>
      if tokens.isEmpty then do
        return Ty.lastKnown (← visitEach .plain .any [] children)
      else do
        count (·.addOperators 1)
        match children with
        | [] => malformed (.missingChild .notExpr 0)
        | operand :: _ => do
          if (← visit operand) = .bool then return .bool
          else reject .invalidExpressionType
    | .unaExpr tokens => do
      if tokens.isEmpty then pure () else count (·.addOperators 1)
      return Ty.lastKnown (← visitEach .plain .any [] children)
    | .boolValue _ => return .bool
    | .intValue _ => return .number
    | .identifier _ => return .unknown
termination_by structural node => node

/-- Reads a list of children from left to right and returns their types after those in `earlier`. It
stops at the first child whose type is not admitted. -/
def visitEach (position : Position) (admitted : Admission) (earlier : List Ty) :
    List Node → Check (List Ty)
  | [] => return earlier
  | child :: rest => do
    let type ←
      match position, child.label with
      | .value, .identifier name => resolve name
      | .arm subject, .caseStmt => caseLabel subject child.children
      | _, _ => visit child
    if admitted earlier type then visitEach position admitted (earlier ++ [type]) rest
    else reject .invalidExpressionType
termination_by structural children => children

end

end Check

end TreeCheck
