import TreeCheck.Proofs.Defects

/-!
# What is lost of an outline

The data of a node that its kind carries stands in the tree that is read from an outline, and tokens
that the kind does not carry are refused. A value that the kind does not carry is neither kept nor
refused. So the outline of a tree is the one that was read, less such values, and the tree has lost
nothing exactly if there are none.
-/

set_option autoImplicit false

namespace TreeCheck

namespace Outline

mutual

/-- The outline without the values that the kinds of its nodes do not carry. -/
def carried : Outline → Outline
  | ⟨kind, value, tokens, children⟩ =>
    ⟨kind, if kind.carriesValue then value else none, tokens, carriedAll children⟩

def carriedAll : List Outline → List Outline
  | [] => []
  | outline :: rest => outline.carried :: carriedAll rest

end

/-! ## The outline of what is read -/

mutual

private theorem outline_of_describes :
    ∀ {outline : Outline} {node : Node}, outline.Describes node → node.outline = outline.carried
  | ⟨kind, value, tokens, outlines⟩, ⟨label, nodes⟩, described => by
      rw [Describes] at described
      obtain ⟨labelled, below⟩ := described
      rw [Node.outline, carried, labelled.kind, labelled.tokens, labelled.payload,
        outlineAll_of_describeAll below]
      rfl

private theorem outlineAll_of_describeAll :
    ∀ {outlines : List Outline} {nodes : List Node}, DescribeAll outlines nodes →
      Node.outlineAll nodes = carriedAll outlines
  | [], [], _ => by rw [Node.outlineAll, carriedAll]
  | [], _ :: _, described => by
      simp [DescribeAll] at described
  | _ :: _, [], described => by
      simp [DescribeAll] at described
  | outline :: rest, node :: nodes, described => by
      rw [DescribeAll] at described
      rw [Node.outlineAll, carriedAll, outline_of_describes described.1,
        outlineAll_of_describeAll described.2]

end

/-- Only values that the kind carries are given. -/
def ValueCarried (node : Outline) : Prop :=
  node.value ≠ none → node.kind.carriesValue = true

private theorem valueCarried_iff {kind : Kind} {value : Option Payload} {tokens : List String}
    {children : List Outline} :
    ValueCarried ⟨kind, value, tokens, children⟩ ↔
      (if kind.carriesValue then value else none) = value := by
  rw [ValueCarried, Outline.value, Outline.kind]
  cases carries : kind.carriesValue with
  | true => simp
  | false => cases value <;> simp

mutual

private theorem carried_eq_self_iff :
    ∀ outline : Outline, outline.carried = outline ↔ ∀ part ∈ outline.nodes, part.ValueCarried
  | ⟨kind, value, tokens, children⟩ => by
      rw [carried, nodes, List.forall_mem_cons, valueCarried_iff, ← carriedAll_eq_self_iff children]
      constructor
      · intro same
        injection same with _ sameValue _ sameChildren
        exact ⟨sameValue, sameChildren⟩
      · rintro ⟨sameValue, sameChildren⟩
        rw [sameValue, sameChildren]

private theorem carriedAll_eq_self_iff :
    ∀ outlines : List Outline,
      carriedAll outlines = outlines ↔ ∀ part ∈ nodesAll outlines, part.ValueCarried
  | [] => by simp [carriedAll, nodesAll]
  | outline :: rest => by
      rw [carriedAll, nodesAll, List.forall_mem_append, List.cons_eq_cons,
        carried_eq_self_iff outline, carriedAll_eq_self_iff rest]

end

/-! ## What makes no difference -/

private theorem length_carriedAll (outlines : List Outline) :
    (carriedAll outlines).length = outlines.length := by
  induction outlines with
  | nil => rw [carriedAll]
  | cons outline rest ih => rw [carriedAll, List.length_cons, List.length_cons, ih]

private theorem toLabel_carried (kind : Kind) (value : Option Payload) (tokens : List String)
    (childCount : Nat) :
    toLabel kind (if kind.carriesValue then value else none) tokens childCount =
      toLabel kind value tokens childCount := by
  cases kind <;> rfl

mutual

private theorem toNode_carried : ∀ outline : Outline, outline.carried.toNode = outline.toNode
  | ⟨kind, value, tokens, children⟩ => by
      rw [carried, toNode, toNode, toLabel_carried, length_carriedAll, toNodes_carriedAll children]

private theorem toNodes_carriedAll :
    ∀ outlines : List Outline, toNodes (carriedAll outlines) = toNodes outlines
  | [] => by rw [carriedAll]
  | outline :: rest => by
      rw [carriedAll, toNodes, toNodes, toNode_carried outline, toNodes_carriedAll rest]

end

/-! ## What is refused -/

private theorem locallyValid_of_toNode {outline : Outline} {node : Node}
    (read : outline.toNode = .ok node) :
    ∀ part ∈ outline.nodes, part.LocallyValid := by
  have silent : report? outline.toNode = none := report?_eq_none_iff.mpr ⟨node, read⟩
  rw [report?_toNode, List.findSome?_eq_none_iff] at silent
  exact fun part member => report?_readLabel_eq_none_iff.mp (silent part member)

private theorem exists_error_of_misplaced {outline part : Outline} (member : part ∈ outline.nodes)
    (given : part.tokens ≠ []) (uncarried : part.kind.carriesTokens = false) :
    ∃ defect, outline.toNode = .error defect := by
  cases read : outline.toNode with
  | error defect => exact ⟨defect, rfl⟩
  | ok node =>
      have misplaced : ¬ part.TokensFit := misplaced_iff.mp (by simp [given, uncarried])
      exact absurd (locallyValid_of_toNode read part member).tokens misplaced

end Outline

/-- The outline of a tree is the one it was read from without the values that the kinds of its nodes
do not carry. So the two are equal exactly if no such value was given. These values make no
difference to the reading, while an outline with tokens that a kind does not carry is refused. -/
theorem outline_of_read_iff (outline : Outline) :
    (∀ node, outline.toNode = .ok node →
      node.outline = outline.carried ∧
      (node.outline = outline ↔
        ∀ part ∈ outline.nodes, part.value ≠ none → part.kind.carriesValue = true)) ∧
    outline.carried.toNode = outline.toNode ∧
    ∀ part ∈ outline.nodes, part.tokens ≠ [] → part.kind.carriesTokens = false →
      ∃ defect, outline.toNode = .error defect := by
  refine ⟨fun node read => ?_, outline.toNode_carried, fun part => ?_⟩
  · have kept := Outline.outline_of_describes (Outline.describes_of_toNode read)
    refine ⟨kept, ?_⟩
    rw [kept]
    exact outline.carried_eq_self_iff
  · exact Outline.exists_error_of_misplaced

/-- The document of a sum whose node is given a minus sign. -/
def differenceDocument : String :=
  "kind = \"Program\"\n\n" ++
  "[[children]]\nkind = \"AddExpr\"\nvalue = \"-\"\nchildren = [\n" ++
  r#"    { kind = "IntValue", value = 2 },"# ++ "\n" ++
  r#"    { kind = "IntValue", value = 1 },"# ++ "\n]\n"

def Outline.difference : Outline :=
  ⟨.program, none, [], [⟨.addExpr, some (.text "-"), [],
    [⟨.intValue, some (.integer 2), [], []⟩, ⟨.intValue, some (.integer 1), [], []⟩]⟩]⟩

/-- The minus sign is lost: the outline is read as the tree of a sum, whose outline has none. -/
theorem difference_is_read_as_sum :
    Outline.difference.toNode =
      .ok (.program [.add [.intLiteral 2, .intLiteral 1]]) ∧
    (Node.program [.add [.intLiteral 2, .intLiteral 1]]).outline ≠ .difference ∧
    ∃ node, parseTree differenceDocument = .ok node ∧
      ∀ part ∈ node.outline.nodes, part.value ≠ some (.text "-") := by
  refine ⟨rfl, fun same => ?_, ?_⟩
  · injection same with _ _ _ items
    injection items with sum
    injection sum with _ sign
    cases sign
  · have signless : (parseTree differenceDocument).toOption.any (fun node =>
        node.outline.nodes.all fun part => part.value != some (.text "-")) = true := by
      decide +kernel
    cases read : parseTree differenceDocument with
    | error failure =>
        rw [read] at signless
        cases signless
    | ok node =>
        rw [read] at signless
        refine ⟨node, rfl, fun part member => ?_⟩
        simpa using List.all_eq_true.mp signless part member

end TreeCheck
