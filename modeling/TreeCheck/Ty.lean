/-!
# Types of the checked language

The language has numbers, booleans and enumerations, and one flat namespace for all of them. A name
is therefore bound to one of six tags: the three things an enumeration introduces (its type name,
the variables declared with it, its values) are told apart by the tag alone, and `Ty.unknown` stands
for everything the checker has no opinion on, such as a statement.
-/

set_option autoImplicit false

namespace TreeCheck

/-- What is known about a declared name or about the value of a node. -/
inductive Ty
  | bool
  | number
  /-- The name of an enumeration. -/
  | enumType
  /-- A variable whose declared type is an enumeration. -/
  | enumVar
  /-- One of the values listed by an enumeration. -/
  | enumValue
  /-- Nothing definite: statements, and variables of an undeclared type. -/
  | unknown
deriving DecidableEq, Repr

namespace Ty

instance : Inhabited Ty := ⟨.unknown⟩

def text : Ty → String
  | .bool => "bool"
  | .number => "num"
  | .enumType => "enum type"
  | .enumVar => "enum variable"
  | .enumValue => "enum value"
  | .unknown => "unknown"

/-- The type a keyword denotes; only `num` and `bool` are keywords. -/
def ofKeyword? (keyword : String) : Option Ty :=
  if keyword = "num" then some .number
  else if keyword = "bool" then some .bool
  else none

/-- Names of enumerations and their values are constants; every other name is a variable. -/
def isVariable : Ty → Bool
  | .enumType | .enumValue => false
  | _ => true

/-- A definite type, one that decides the type of the nodes around it. -/
def isKnown (type : Ty) : Bool :=
  type != .unknown

/-- Whether a target of type `target` takes a value of type `value`: types must agree, except that
an enumeration's values go into its variables. -/
def acceptsAssignment (target value : Ty) : Bool :=
  target == value || (target == .enumVar && value == .enumValue)

/-- Only numbers and enumeration variables can be switched on. -/
def isSwitchable : Ty → Bool
  | .number | .enumVar => true
  | _ => false

def acceptsCase (subject label : Ty) : Bool :=
  match subject with
  | .enumVar => label == .enumValue
  | _ => label == subject

/-- Only numbers and booleans can be compared for equality. -/
def isEqualityOperand : Ty → Bool
  | .number | .bool => true
  | _ => false

@[simp] theorem isKnown_unknown : Ty.unknown.isKnown = false := rfl

theorem isKnown_iff {type : Ty} : type.isKnown = true ↔ type ≠ .unknown := by
  simp [isKnown]

theorem acceptsAssignment_iff {target value : Ty} :
    target.acceptsAssignment value = true ↔
      target = value ∨ (target = .enumVar ∧ value = .enumValue) := by
  simp [acceptsAssignment]

end Ty

end TreeCheck
