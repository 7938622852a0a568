import TreeCheck.Node.Kind
import TreeCheck.Ty

/-!
# Log events

What a run of the checker reports about itself, as data. The command line does not show these
events; they make the order in which a tree is walked observable.
-/

set_option autoImplicit false

namespace TreeCheck

inductive Event
  /-- A run starts on a program with this many nodes. -/
  | checking (nodes : Nat)
  /-- The rule of a node with this many children is about to be applied. -/
  | visit (kind : Kind) (children : Nat)
  /-- A variable is about to be declared. -/
  | declareVariable (name : String) (type : Ty)
  /-- An enumeration with this many values is about to be declared. -/
  | declareEnum (typeName : String) (values : Nat)
  /-- A run ends with success. -/
  | wellTyped (symbols vars operators : Nat)
deriving DecidableEq, Repr

end TreeCheck
