import TreeCheck.Node.Build
import TreeCheck.Outline.Basic
import TreeCheck.Proofs.Steps

/-!
# Trees that have an outline

Every tree can be written down as an outline, node by node and with all its data. The outline reads
back as the tree, unless the tree has a comparison of several operands without an operator: this is
the one thing that trees can hold and outlines cannot say. The functions that build trees never make
such a comparison.
-/

set_option autoImplicit false

namespace TreeCheck

/-! ## Outlines of nodes -/

/-- The value that an outline gives for a label. -/
def Label.payload : Label → Option Payload
  | .declaration typeName => typeName.map .text
  | .compExpr operator => operator.map fun operator => .text operator.text
  | .boolValue value => some (.bool value)
  | .identifier name => some (.text name)
  | .intValue value => some (.integer value)
  | _ => none

def Label.tokens : Label → List String
  | .boolExpr tokens | .notExpr tokens | .unaExpr tokens => tokens
  | _ => []

namespace Node

mutual

/-- The outline with the data of a tree, field by field. -/
def outline : Node → Outline
  | ⟨label, children⟩ => ⟨label.kind, label.payload, label.tokens, outlineAll children⟩

def outlineAll : List Node → List Outline
  | [] => []
  | node :: rest => node.outline :: outlineAll rest

end

private theorem outlineAll_eq (nodes : List Node) : outlineAll nodes = nodes.map outline := by
  induction nodes with
  | nil => simp [outlineAll]
  | cons node rest ih => simp [outlineAll, ih]

private theorem outline_mk (label : Label) (children : List Node) :
    (Node.mk label children).outline =
      ⟨label.kind, label.payload, label.tokens, children.map outline⟩ := by
  rw [outline, outlineAll_eq]

/-! ## Comparisons without an operator -/

mutual

/-- All the nodes of a tree, each with what is below it. -/
def subtrees : Node → List Node
  | ⟨label, children⟩ => ⟨label, children⟩ :: subtreesAll children

def subtreesAll : List Node → List Node
  | [] => []
  | node :: rest => node.subtrees ++ subtreesAll rest

end

private theorem mem_subtreesAll {node : Node} {nodes : List Node} :
    node ∈ subtreesAll nodes ↔ ∃ child ∈ nodes, node ∈ child.subtrees := by
  induction nodes with
  | nil => simp [subtreesAll]
  | cons child rest ih => simp [subtreesAll, ih]

/-- A comparison that does not say how its operands are compared. -/
def LacksOperator (node : Node) : Prop :=
  node.label = .compExpr none ∧ 1 < node.children.length

instance (node : Node) : Decidable node.LacksOperator :=
  inferInstanceAs (Decidable (_ ∧ _))

def NamesOperators (tree : Node) : Prop :=
  ∀ node ∈ tree.subtrees, ¬ node.LacksOperator

private theorem namesOperators_mk_iff {label : Label} {children : List Node} :
    (Node.mk label children).NamesOperators ↔
      ¬ (Node.mk label children).LacksOperator ∧ ∀ child ∈ children, child.NamesOperators := by
  simp only [NamesOperators, subtrees, List.mem_cons, mem_subtreesAll]
  constructor
  · intro named
    refine ⟨named _ (.inl rfl), fun child member node below => ?_⟩
    exact named node (.inr ⟨child, member, below⟩)
  · rintro ⟨own, others⟩ node (rfl | ⟨child, member, below⟩)
    · exact own
    · exact others child member node below

end Node

/-! ## From a tree to its outline and back -/

namespace Outline

/-- The data of a label fit its kind; only the operator of a comparison may be missing. -/
theorem toLabel_of_label (label : Label) (children : List Node) :
    toLabel label.kind label.payload label.tokens children.length =
      if (Node.mk label children).LacksOperator then .error .missingOperator else .ok label := by
  cases label with
  | compExpr operator =>
      cases operator with
      | none =>
          by_cases several : 1 < children.length <;>
            simp [several, Node.LacksOperator, toLabel, Label.kind, Label.payload, Label.tokens,
              comparison, optionalText, bind, Except.bind, pure, Except.pure, throw, throwThe,
              MonadExceptOf.throw]
      | some operator =>
          simp [Node.LacksOperator, toLabel, Label.kind, Label.payload, Label.tokens, comparison,
            optionalText, bind, Except.bind, pure, Except.pure]
  | declaration typeName => cases typeName <;> rfl
  | boolExpr tokens | notExpr tokens | unaExpr tokens => cases tokens <;> rfl
  | _ => rfl

private theorem toNodes_map_outline {children : List Node}
    (read : ∀ child ∈ children, child.NamesOperators → child.outline.toNode = .ok child)
    (named : ∀ child ∈ children, child.NamesOperators) :
    toNodes (children.map Node.outline) = .ok children := by
  induction children with
  | nil => rfl
  | cons child rest ih =>
      obtain ⟨first, others⟩ := List.forall_mem_cons.mp read
      obtain ⟨firstNamed, othersNamed⟩ := List.forall_mem_cons.mp named
      rw [List.map_cons, toNodes, first firstNamed, ih others othersNamed]
      rfl

private theorem toNode_outline {node : Node} (named : node.NamesOperators) :
    node.outline.toNode = .ok node := by
  induction node using Node.childrenInduction with
  | step label children ih =>
      obtain ⟨own, others⟩ := Node.namesOperators_mk_iff.mp named
      rw [Node.outline_mk, toNode, List.length_map, toLabel_of_label, if_neg own,
        toNodes_map_outline ih others]
      rfl

/-- Nothing else is ever wrong with the outlines of trees, so it does not matter which of several
comparisons is found first. -/
private theorem toNodes_map_outline_of_not {children : List Node}
    (refused : ∀ child ∈ children, ¬ child.NamesOperators →
      child.outline.toNode = .error .missingOperator)
    (unnamed : ¬ ∀ child ∈ children, child.NamesOperators) :
    toNodes (children.map Node.outline) = .error .missingOperator := by
  induction children with
  | nil => simp at unnamed
  | cons child rest ih =>
      obtain ⟨first, others⟩ := List.forall_mem_cons.mp refused
      rw [List.map_cons, toNodes]
      by_cases named : child.NamesOperators
      · have later : ¬ ∀ other ∈ rest, other.NamesOperators :=
          fun all => unnamed (List.forall_mem_cons.mpr ⟨named, all⟩)
        rw [toNode_outline named, ih others later]
        rfl
      · rw [first named]
        rfl

private theorem toNode_outline_of_not {node : Node} (unnamed : ¬ node.NamesOperators) :
    node.outline.toNode = .error .missingOperator := by
  induction node using Node.childrenInduction with
  | step label children ih =>
      rw [Node.outline_mk, toNode, List.length_map, toLabel_of_label]
      by_cases lacking : (Node.mk label children).LacksOperator
      · rw [if_pos lacking]
        rfl
      · have below : ¬ ∀ child ∈ children, child.NamesOperators :=
          fun all => unnamed (Node.namesOperators_mk_iff.mpr ⟨lacking, all⟩)
        rw [if_neg lacking, toNodes_map_outline_of_not ih below]
        rfl

/-! ## Trees of arbitrary outlines -/

theorem bind_eq_ok {α β : Type} {step : Except Defect α} {next : α → Except Defect β} {value : β}
    (done : step >>= next = .ok value) : ∃ result, step = .ok result ∧ next result = .ok value := by
  cases step with
  | error found => cases done
  | ok result => exact ⟨result, rfl, done⟩

/-- An outline of a comparison with several children is only read if its operator is given. -/
theorem not_lacksOperator_of_toLabel {kind : Kind} {value : Option Payload} {tokens : List String}
    {label : Label} {children : List Node}
    (read : toLabel kind value tokens children.length = .ok label) :
    ¬ (Node.mk label children).LacksOperator := by
  rintro ⟨rfl, several⟩
  rw [Node.children_mk] at several
  unfold toLabel at read
  split at read
  · cases read
  · cases kind with
    | compExpr =>
        obtain ⟨operator, -, checked⟩ := bind_eq_ok read
        cases operator with
        | none =>
            simp [several, bind, Except.bind, throw, throwThe, MonadExceptOf.throw] at checked
        | some operator => cases checked
    | declaration =>
        dsimp only at read
        cases found : optionalText .declaration value with
        | error defect => rw [found] at read; cases read
        | ok typeName => rw [found] at read; cases read
    | boolValue | identifier | intValue =>
        dsimp only at read
        split at read <;> cases read
    | _ => cases read

mutual

private theorem namesOperators_of_toNode :
    ∀ {outline : Outline} {node : Node}, outline.toNode = .ok node → node.NamesOperators
  | ⟨kind, value, tokens, children⟩, node, read => by
      rw [toNode] at read
      obtain ⟨label, labelled, read⟩ := bind_eq_ok read
      obtain ⟨nodes, below, read⟩ := bind_eq_ok read
      cases read
      obtain ⟨length, named⟩ := namesOperators_of_toNodes below
      rw [← length] at labelled
      exact Node.namesOperators_mk_iff.mpr ⟨not_lacksOperator_of_toLabel labelled, named⟩

private theorem namesOperators_of_toNodes :
    ∀ {outlines : List Outline} {nodes : List Node}, toNodes outlines = .ok nodes →
      nodes.length = outlines.length ∧ ∀ node ∈ nodes, node.NamesOperators
  | [], nodes, read => by
      cases read
      simp
  | outline :: rest, nodes, read => by
      rw [toNodes] at read
      obtain ⟨node, first, read⟩ := bind_eq_ok read
      obtain ⟨others, later, read⟩ := bind_eq_ok read
      cases read
      obtain ⟨length, named⟩ := namesOperators_of_toNodes later
      exact ⟨by simp [length],
        List.forall_mem_cons.mpr ⟨namesOperators_of_toNode first, named⟩⟩

end

end Outline

/-! ## Built trees -/

/-- A tree put together by the functions that build trees, from trees that were given. -/
inductive Node.Built (given : Node → Prop) : Node → Prop where
  | given {node : Node} : given node → Built given node
  | ident {name : String} : Built given (.ident name)
  | intLiteral {value : Int64} : Built given (.intLiteral value)
  | program {items : List Node} : (∀ item ∈ items, Built given item) → Built given (.program items)
  | declaration {typeName name : String} : Built given (.declaration typeName name)
  | enumDeclaration {enumType name : String} : Built given (.enumDeclaration enumType name)
  | block {statements : List Node} :
      (∀ statement ∈ statements, Built given statement) → Built given (.block statements)
  | stmt {inner : Node} : Built given inner → Built given (.stmt inner)
  | ifStmt {condition : Node} {body : List Node} :
      Built given condition → (∀ node ∈ body, Built given node) →
      Built given (.ifStmt condition body)
  | whileStmt {condition : Node} {body : List Node} :
      Built given condition → (∀ node ∈ body, Built given node) →
      Built given (.whileStmt condition body)
  | assign {name : String} {value : Node} : Built given value → Built given (.assign name value)
  | enumStmt {name : String} {values : List String} : Built given (.enumStmt name values)
  | switch {name : String} {cases : List Node} :
      (∀ node ∈ cases, Built given node) → Built given (.switch name cases)
  | case {label : Node} {body : List Node} :
      Built given label → (∀ node ∈ body, Built given node) → Built given (.case label body)
  | expr {inner : Node} : Built given inner → Built given (.expr inner)
  | compareChain {operator : Comparison} {operands : List Node} :
      (∀ operand ∈ operands, Built given operand) → Built given (.compareChain operator operands)
  | compare {operator : Comparison} {left right : Node} :
      Built given left → Built given right → Built given (.compare operator left right)
  | add {operands : List Node} :
      (∀ operand ∈ operands, Built given operand) → Built given (.add operands)
  | mul {operands : List Node} :
      (∀ operand ∈ operands, Built given operand) → Built given (.mul operands)
  | boolChain {tokens : List String} {operands : List Node} :
      (∀ operand ∈ operands, Built given operand) → Built given (.boolChain tokens operands)
  | and {left right : Node} :
      Built given left → Built given right → Built given (.and left right)
  | not {operand : Node} : Built given operand → Built given (.not operand)
  | negate {operand : Node} : Built given operand → Built given (.negate operand)
  | var {name : String} : Built given (.var name)
  | int {value : Int64} : Built given (.int value)
  | boolean {value : Bool} : Built given (.boolean value)

namespace Node

/-- A node of any other label, or a comparison with an operator, may stand over trees that name
their operators. -/
theorem namesOperators_of_children {label : Label} {children : List Node}
    (other : label ≠ .compExpr none) (named : ∀ child ∈ children, child.NamesOperators) :
    (Node.mk label children).NamesOperators :=
  namesOperators_mk_iff.mpr ⟨fun lacking => other lacking.1, named⟩

private theorem namesOperators_leaf {label : Label} (other : label ≠ .compExpr none) :
    (Node.mk label []).NamesOperators :=
  namesOperators_of_children other (by simp)

theorem Built.namesOperators {node : Node} (built : Built NamesOperators node) :
    node.NamesOperators := by
  have named : ∀ name, (Node.ident name).NamesOperators :=
    fun _ => namesOperators_leaf Label.noConfusion
  induction built with
  | given named => exact named
  | ident => exact named _
  | intLiteral => exact namesOperators_leaf Label.noConfusion
  | program _ ih | block _ ih | add _ ih | mul _ ih | boolChain _ ih =>
      exact namesOperators_of_children Label.noConfusion ih
  | declaration | enumDeclaration | var =>
      exact namesOperators_of_children Label.noConfusion (by simp [named])
  | stmt _ ih | expr _ ih | not _ ih | negate _ ih =>
      exact namesOperators_of_children Label.noConfusion (by simpa using ih)
  | ifStmt _ _ first others | whileStmt _ _ first others | case _ _ first others =>
      exact namesOperators_of_children Label.noConfusion (List.forall_mem_cons.mpr ⟨first, others⟩)
  | assign _ ih => exact namesOperators_of_children Label.noConfusion (by simp [named, ih])
  | enumStmt =>
      refine namesOperators_of_children Label.noConfusion fun child member => ?_
      obtain ⟨name, -, rfl⟩ := List.mem_map.mp member
      exact named name
  | switch _ ih =>
      exact namesOperators_of_children Label.noConfusion (List.forall_mem_cons.mpr ⟨named _, ih⟩)
  | compareChain _ ih => exact namesOperators_of_children (by simp) ih
  | compare _ _ left right => exact namesOperators_of_children (by simp) (by simp [left, right])
  | and _ _ left right =>
      exact namesOperators_of_children Label.noConfusion (by simp [left, right])
  | int | boolean =>
      exact namesOperators_of_children Label.noConfusion
        (List.forall_mem_singleton.mpr (namesOperators_leaf Label.noConfusion))

end Node

/-- The outline of a tree reads back as the tree exactly if every comparison of several operands
names its operator, and otherwise a missing operator is reported. No outline gives any other tree,
and whatever is built from such trees is such a tree again. -/
theorem outline_reads_back_iff_namesOperators :
    (∀ node : Node, (node.outline.toNode = .ok node ↔ node.NamesOperators) ∧
      (¬ node.NamesOperators → node.outline.toNode = .error .missingOperator)) ∧
    Defect.missingOperator.message = "CompExpr with several operands needs an operator" ∧
    (∀ (outline : Outline) (node : Node), outline.toNode = .ok node → node.NamesOperators) ∧
    (∀ node : Node, node.Built Node.NamesOperators →
      node.NamesOperators ∧ node.outline.toNode = .ok node) := by
  refine ⟨fun node => ⟨⟨?_, Outline.toNode_outline⟩, Outline.toNode_outline_of_not⟩, rfl, ?_, ?_⟩
  · exact Outline.namesOperators_of_toNode
  · intro outline node read
    exact Outline.namesOperators_of_toNode read
  · intro node built
    exact ⟨built.namesOperators, Outline.toNode_outline built.namesOperators⟩

end TreeCheck
