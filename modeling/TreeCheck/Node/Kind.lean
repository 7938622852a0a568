import TreeCheck.Comparison

/-!
# Kinds and labels of syntax nodes

A `Kind` names one of the twenty-one sorts of node. A `Label` is a kind together with the data that
a node of this kind carries: the declared type's keyword, the comparison operator, the operator
tokens of a boolean or unary chain, or the value of a literal.
-/

set_option autoImplicit false

namespace TreeCheck

inductive Kind
  | program
  | declaration
  | block
  | stmt
  | ifStmt
  | whileStmt
  | assignStmt
  | enumStmt
  | switchStmt
  | caseStmt
  | expr
  | compExpr
  | addExpr
  | mulExpr
  | boolExpr
  | notExpr
  | unaExpr
  | genValue
  | boolValue
  | identifier
  | intValue
deriving DecidableEq, Repr

namespace Kind

def name : Kind → String
  | .program => "Program"
  | .declaration => "Declaration"
  | .block => "Block"
  | .stmt => "Stmt"
  | .ifStmt => "IfStmt"
  | .whileStmt => "WhileStmt"
  | .assignStmt => "AssignStmt"
  | .enumStmt => "EnumStmt"
  | .switchStmt => "SwitchStmt"
  | .caseStmt => "CaseStmt"
  | .expr => "Expr"
  | .compExpr => "CompExpr"
  | .addExpr => "AddExpr"
  | .mulExpr => "MulExpr"
  | .boolExpr => "BoolExpr"
  | .notExpr => "NotExpr"
  | .unaExpr => "UnaExpr"
  | .genValue => "GenValue"
  | .boolValue => "BoolValue"
  | .identifier => "Identifier"
  | .intValue => "IntValue"

/-- Every kind, in the order in which messages list them. -/
def all : List Kind :=
  [.program, .declaration, .block, .stmt, .ifStmt, .whileStmt, .assignStmt, .enumStmt, .switchStmt,
    .caseStmt, .expr, .compExpr, .addExpr, .mulExpr, .boolExpr, .notExpr, .unaExpr, .genValue,
    .boolValue, .identifier, .intValue]

def ofName? (name : String) : Option Kind :=
  all.find? fun kind => kind.name == name

/-- Boolean chains, negations and unary chains keep the operator tokens they were written with. -/
def carriesTokens : Kind → Bool
  | .boolExpr | .notExpr | .unaExpr => true
  | _ => false

end Kind

/-- A kind with the data its nodes carry. -/
inductive Label
  | program
  /-- A variable declaration, with the keyword of its type when the type is written as a keyword. -/
  | declaration (typeName : Option String)
  | block
  | stmt
  | ifStmt
  | whileStmt
  | assignStmt
  | enumStmt
  | switchStmt
  | caseStmt
  | expr
  /-- A comparison chain; a single operand needs no operator. -/
  | compExpr (operator : Option Comparison)
  | addExpr
  | mulExpr
  | boolExpr (tokens : List String)
  | notExpr (tokens : List String)
  | unaExpr (tokens : List String)
  | genValue
  | boolValue (value : Bool)
  | identifier (name : String)
  | intValue (value : Int64)
deriving DecidableEq, Repr

namespace Label

def kind : Label → Kind
  | .program => .program
  | .declaration _ => .declaration
  | .block => .block
  | .stmt => .stmt
  | .ifStmt => .ifStmt
  | .whileStmt => .whileStmt
  | .assignStmt => .assignStmt
  | .enumStmt => .enumStmt
  | .switchStmt => .switchStmt
  | .caseStmt => .caseStmt
  | .expr => .expr
  | .compExpr _ => .compExpr
  | .addExpr => .addExpr
  | .mulExpr => .mulExpr
  | .boolExpr _ => .boolExpr
  | .notExpr _ => .notExpr
  | .unaExpr _ => .unaExpr
  | .genValue => .genValue
  | .boolValue _ => .boolValue
  | .identifier _ => .identifier
  | .intValue _ => .intValue

end Label

end TreeCheck
