import TreeCheck.Node.Basic

/-!
# Building syntax trees

One function per construct of the language, each giving the tree shape that a parser of the language
produces for it. A program that reads `num a; a = 1 + 2;` is

    Node.program [Node.declaration "num" "a",
      Node.stmt (Node.assign "a" (Node.expr (Node.add [Node.int 1, Node.int 2])))]
-/

set_option autoImplicit false

namespace TreeCheck.Node

def ident (name : String) : Node :=
  ⟨.identifier name, []⟩

/-- A bare integer, as it stands in a case label. -/
def intLiteral (value : Int64) : Node :=
  ⟨.intValue value, []⟩

def program (items : List Node) : Node :=
  ⟨.program, items⟩

/-- The declaration `typeName name;` of a variable whose type is written as a keyword. -/
def declaration (typeName name : String) : Node :=
  ⟨.declaration (some typeName), [ident name]⟩

/-- The declaration `enumType name;` of a variable of a declared enumeration. -/
def enumDeclaration (enumType name : String) : Node :=
  ⟨.declaration none, [ident enumType, ident name]⟩

def block (statements : List Node) : Node :=
  ⟨.block, statements⟩

def stmt (inner : Node) : Node :=
  ⟨.stmt, [inner]⟩

def ifStmt (condition : Node) (body : List Node) : Node :=
  ⟨.ifStmt, condition :: body⟩

def whileStmt (condition : Node) (body : List Node) : Node :=
  ⟨.whileStmt, condition :: body⟩

def assign (name : String) (value : Node) : Node :=
  ⟨.assignStmt, [ident name, value]⟩

def enumStmt (name : String) (values : List String) : Node :=
  ⟨.enumStmt, (name :: values).map ident⟩

def switch (name : String) (cases : List Node) : Node :=
  ⟨.switchStmt, ident name :: cases⟩

def case (label : Node) (body : List Node) : Node :=
  ⟨.caseStmt, label :: body⟩

def expr (inner : Node) : Node :=
  ⟨.expr, [inner]⟩

def compareChain (operator : Comparison) (operands : List Node) : Node :=
  ⟨.compExpr (some operator), operands⟩

def compare (operator : Comparison) (left right : Node) : Node :=
  compareChain operator [left, right]

def add (operands : List Node) : Node :=
  ⟨.addExpr, operands⟩

def mul (operands : List Node) : Node :=
  ⟨.mulExpr, operands⟩

def boolChain (tokens : List String) (operands : List Node) : Node :=
  ⟨.boolExpr tokens, operands⟩

def and (left right : Node) : Node :=
  boolChain ["&&"] [left, right]

def not (operand : Node) : Node :=
  ⟨.notExpr ["!"], [operand]⟩

def negate (operand : Node) : Node :=
  ⟨.unaExpr ["-"], [operand]⟩

def var (name : String) : Node :=
  ⟨.genValue, [ident name]⟩

def int (value : Int64) : Node :=
  ⟨.genValue, [intLiteral value]⟩

def boolean (value : Bool) : Node :=
  ⟨.genValue, [⟨.boolValue value, []⟩]⟩

end TreeCheck.Node
