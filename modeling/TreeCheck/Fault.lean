import TreeCheck.Node.Kind

/-!
# Why a tree is refused

A `Violation` is a rule of the language that a readable tree breaks. `Malformed` is a tree whose
shape the rules cannot read at all. Both are causes; their wording is given by `message`, `code` and
`help` and nowhere else.
-/

set_option autoImplicit false

namespace TreeCheck

inductive CaseLabel
  | integer (value : Int64)
  | identifier (name : String)
deriving DecidableEq, Repr

inductive Violation
  | undefinedIdentifier (name : String)
  | multipleDeclaration (name : String)
  | unknownDeclaredType (name typeName : String)
  | invalidConditionType
  | invalidExpressionType
  | invalidAssignmentType (name : String)
  | invalidSwitchType (name : String)
  | invalidCaseType (label : CaseLabel)
deriving DecidableEq, Repr

inductive Malformed
  /-- The root of a program has another kind. -/
  | root (found : Kind)
  | nestedProgram
  | strayCase
  | missingChild (parent : Kind) (index : Nat)
  | notIdentifier (parent : Kind) (index : Nat) (found : Kind)
  | caseLabel (found : Kind)
deriving DecidableEq, Repr

/-- The first thing found wrong with a tree. -/
inductive Fault
  | violation (broken : Violation)
  | malformed (shape : Malformed)
deriving DecidableEq, Repr

def CaseLabel.text : CaseLabel → String
  | .integer value => "integer " ++ toString value.toInt
  | .identifier name => "Identifier " ++ name

namespace Violation

def message : Violation → String
  | .undefinedIdentifier name => "Invalid use of undefined Identifier " ++ name
  | .multipleDeclaration name => "Identifier " ++ name ++ " has multiple declarations"
  | .unknownDeclaredType name typeName =>
    "Identifier " ++ name ++ " has been declared with the type " ++ typeName ++
      " that does not exist"
  | .invalidConditionType => "Invalid type in condition"
  | .invalidExpressionType => "Invalid type in expression"
  | .invalidAssignmentType name => "Invalid type in assignation of Identifier " ++ name
  | .invalidSwitchType name => "Invalid type in switch of Identifier " ++ name
  | .invalidCaseType label => "Invalid type in case of " ++ label.text

def code : Violation → String
  | .undefinedIdentifier _ => "sema::semantic::undefined_identifier"
  | .multipleDeclaration _ => "sema::semantic::multiple_declaration"
  | .unknownDeclaredType _ _ => "sema::semantic::unknown_declared_type"
  | .invalidConditionType => "sema::semantic::invalid_condition_type"
  | .invalidExpressionType => "sema::semantic::invalid_expression_type"
  | .invalidAssignmentType _ => "sema::semantic::invalid_assignment_type"
  | .invalidSwitchType _ => "sema::semantic::invalid_switch_type"
  | .invalidCaseType _ => "sema::semantic::invalid_case_type"

def help : Violation → Option String
  | .undefinedIdentifier _ => some "declare the identifier before using it in an expression"
  | .multipleDeclaration _ => some "variables, enum types and enum values share a single namespace"
  | .unknownDeclaredType _ _ =>
    some "use `num`, `bool`, or an enum declared earlier in the program"
  | .invalidConditionType => some "`if` and `while` conditions must be of type bool"
  | .invalidSwitchType _ => some "only num and enum variables can be switched on"
  | .invalidExpressionType | .invalidAssignmentType _ | .invalidCaseType _ => none

end Violation

def Malformed.message : Malformed → String
  | .root found => "the root must be a Program node, found " ++ found.name
  | .nestedProgram => "Program node found below the root"
  | .strayCase => "CaseStmt found outside of a SwitchStmt"
  | .missingChild parent index => parent.name ++ " is missing child #" ++ toString index
  | .notIdentifier parent index found =>
    parent.name ++ " expects an Identifier as child #" ++ toString index ++ ", found " ++ found.name
  | .caseLabel found => "case label must be an Identifier or IntValue, found " ++ found.name

def Malformed.code : String :=
  "sema::tree"

/-- A report on the shape of a tree: `detail` says what is wrong. -/
def Malformed.report (detail : String) : String :=
  "Malformed syntax tree: " ++ detail

namespace Fault

def message : Fault → String
  | .violation broken => broken.message
  | .malformed shape => Malformed.report shape.message

def code : Fault → String
  | .violation broken => broken.code
  | .malformed _ => Malformed.code

def help : Fault → Option String
  | .violation broken => broken.help
  | .malformed _ => none

end Fault

end TreeCheck
