import TreeCheck.Node.Kind

/-!
# Syntax trees

A node is a label over a list of children. Nothing restricts which children stand below which label:
the checker reports trees whose shape it cannot read.
-/

set_option autoImplicit false

namespace TreeCheck

inductive Node where
  | mk (label : Label) (children : List Node)

namespace Node

def label : Node → Label
  | ⟨label, _⟩ => label

def children : Node → List Node
  | ⟨_, children⟩ => children

def kind (node : Node) : Kind :=
  node.label.kind

def identifier? (node : Node) : Option String :=
  match node.label with
  | .identifier name => some name
  | _ => none

mutual

def size : Node → Nat
  | ⟨_, children⟩ => 1 + sizeAll children

def sizeAll : List Node → Nat
  | [] => 0
  | node :: rest => node.size + sizeAll rest

end

@[simp] theorem label_mk (label : Label) (children : List Node) :
    (Node.mk label children).label = label := rfl

@[simp] theorem children_mk (label : Label) (children : List Node) :
    (Node.mk label children).children = children := rfl

end Node

end TreeCheck
