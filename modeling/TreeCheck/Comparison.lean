/-!
# Comparison operators

The six operators that join the operands of a comparison, and their spelling. Reading accepts
exactly the spellings that writing produces.
-/

set_option autoImplicit false

namespace TreeCheck

inductive Comparison
  | less
  | greater
  | lessEqual
  | greaterEqual
  | equal
  | notEqual
deriving DecidableEq, Repr

namespace Comparison

def text : Comparison → String
  | .less => "<"
  | .greater => ">"
  | .lessEqual => "<="
  | .greaterEqual => ">="
  | .equal => "=="
  | .notEqual => "!="

def all : List Comparison :=
  [.less, .greater, .lessEqual, .greaterEqual, .equal, .notEqual]

def ofText? (spelling : String) : Option Comparison :=
  all.find? fun operator => operator.text == spelling

/-- Equality and inequality compare booleans too; the other operators only order numbers. -/
def isEquality : Comparison → Bool
  | .equal | .notEqual => true
  | _ => false

def unknownMessage (spelling : String) : String :=
  "unknown comparison operator '" ++ spelling ++ "'"

@[simp] theorem ofText?_text (operator : Comparison) : ofText? operator.text = some operator := by
  cases operator <;> rfl

theorem ofText?_eq_some_iff {spelling : String} {operator : Comparison} :
    ofText? spelling = some operator ↔ spelling = operator.text := by
  constructor
  · intro found
    have spelled := List.find?_some found
    exact (beq_iff_eq.mp spelled).symm
  · rintro rfl
    exact ofText?_text operator

end Comparison

end TreeCheck
