import TreeCheck.Fault
import TreeCheck.Node.Basic

/-!
# Outlines of trees

An outline is a tree as documents give it: every node has a kind, maybe a value, a list of operator
tokens, and children. Not every outline is a tree: the value and the tokens of a node must fit its
kind. `Outline.toNode` reports the first node that does not fit, a parent before its children and
the children from left to right. A value on a kind that carries none is ignored.
-/

set_option autoImplicit false

namespace TreeCheck

inductive Payload
  | bool (value : Bool)
  | integer (value : Int64)
  | text (value : String)
deriving DecidableEq, Repr

inductive Outline where
  | mk (kind : Kind) (value : Option Payload) (tokens : List String) (children : List Outline)

inductive Defect
  | misplacedTokens (kind : Kind)
  /-- The value is missing or has another type. -/
  | wrongValue (kind : Kind) (expected : String)
  | unknownComparison (spelling : String)
  | missingOperator
deriving DecidableEq, Repr

def Defect.message : Defect → String
  | .misplacedTokens kind => kind.name ++ " nodes do not carry operator tokens"
  | .wrongValue kind expected => kind.name ++ " node expects " ++ expected
  | .unknownComparison spelling => Comparison.unknownMessage spelling
  | .missingOperator => "CompExpr with several operands needs an operator"

namespace Outline

def optionalText (kind : Kind) : Option Payload → Except Defect (Option String)
  | none => .ok none
  | some (.text value) => .ok (some value)
  | some _ => .error (.wrongValue kind "a string value")

def comparison (value : Option Payload) : Except Defect (Option Comparison) := do
  match ← optionalText .compExpr value with
  | none => return none
  | some spelling =>
    match Comparison.ofText? spelling with
    | some operator => return some operator
    | none => throw (.unknownComparison spelling)

/-- The label of a node with `childCount` children. Misplaced tokens are reported before a bad
value, and a bad value before a missing operator. -/
def toLabel (kind : Kind) (value : Option Payload) (tokens : List String) (childCount : Nat) :
    Except Defect Label :=
  if !tokens.isEmpty && !kind.carriesTokens then .error (.misplacedTokens kind)
  else match kind with
    | .program => .ok .program
    | .declaration => .declaration <$> optionalText .declaration value
    | .block => .ok .block
    | .stmt => .ok .stmt
    | .ifStmt => .ok .ifStmt
    | .whileStmt => .ok .whileStmt
    | .assignStmt => .ok .assignStmt
    | .enumStmt => .ok .enumStmt
    | .switchStmt => .ok .switchStmt
    | .caseStmt => .ok .caseStmt
    | .expr => .ok .expr
    | .compExpr => do
      let operator ← comparison value
      if operator.isNone && childCount > 1 then throw .missingOperator
      return .compExpr operator
    | .addExpr => .ok .addExpr
    | .mulExpr => .ok .mulExpr
    | .boolExpr => .ok (.boolExpr tokens)
    | .notExpr => .ok (.notExpr tokens)
    | .unaExpr => .ok (.unaExpr tokens)
    | .genValue => .ok .genValue
    | .boolValue =>
      match value with
      | some (.bool value) => .ok (.boolValue value)
      | _ => .error (.wrongValue .boolValue "a boolean value")
    | .identifier =>
      match value with
      | some (.text name) => .ok (.identifier name)
      | _ => .error (.wrongValue .identifier "a string name")
    | .intValue =>
      match value with
      | some (.integer value) => .ok (.intValue value)
      | _ => .error (.wrongValue .intValue "an integer value")

mutual

def toNode : Outline → Except Defect Node
  | ⟨kind, value, tokens, children⟩ => do
    let label ← toLabel kind value tokens children.length
    return ⟨label, ← toNodes children⟩

def toNodes : List Outline → Except Defect (List Node)
  | [] => .ok []
  | outline :: rest => do
    let node ← toNode outline
    return node :: (← toNodes rest)

end

end Outline

end TreeCheck
