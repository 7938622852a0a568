import TreeCheck.Outline.Load
import TreeCheck.Proofs.Outlining

/-!
# The first defect of an outline

Whether an outline is a tree is a matter of its single nodes: each must be valid by itself, which is
said here apart from the reading of outlines. The reading reports what is wrong with the first node
that is not valid, parents before children and children from left to right, and otherwise gives a
tree that is described by the outline node by node.
-/

set_option autoImplicit false

namespace TreeCheck

namespace Outline

def kind : Outline → Kind
  | ⟨kind, _, _, _⟩ => kind

def value : Outline → Option Payload
  | ⟨_, value, _, _⟩ => value

def tokens : Outline → List String
  | ⟨_, _, tokens, _⟩ => tokens

def children : Outline → List Outline
  | ⟨_, _, _, children⟩ => children

mutual

/-- The nodes of an outline, parents before children and children from left to right. -/
def nodes : Outline → List Outline
  | ⟨kind, value, tokens, children⟩ => ⟨kind, value, tokens, children⟩ :: nodesAll children

def nodesAll : List Outline → List Outline
  | [] => []
  | outline :: rest => outline.nodes ++ nodesAll rest

end

/-! ## Valid nodes -/

/-- Only boolean chains, negations and unary chains may have operator tokens. -/
def TokensFit (node : Outline) : Prop :=
  node.tokens = [] ∨ node.kind = .boolExpr ∨ node.kind = .notExpr ∨ node.kind = .unaExpr

def ValueFits (node : Outline) : Prop :=
  match node.kind with
  | .boolValue => ∃ value, node.value = some (.bool value)
  | .identifier => ∃ name, node.value = some (.text name)
  | .intValue => ∃ value, node.value = some (.integer value)
  | .declaration => node.value = none ∨ ∃ typeName, node.value = some (.text typeName)
  | .compExpr =>
    node.value = none ∨
      ∃ spelling ∈ ["<", ">", "<=", ">=", "==", "!="], node.value = some (.text spelling)
  | _ => True

/-- A comparison of several operands says how they are compared. -/
def OperatorGiven (node : Outline) : Prop :=
  node.kind = .compExpr → node.value = none → node.children.length ≤ 1

structure LocallyValid (node : Outline) : Prop where
  tokens : node.TokensFit
  value : node.ValueFits
  operator : node.OperatorGiven

/-- What is wrong with a value that does not fit its node. -/
def valueDefect (node : Outline) : Defect :=
  match node.kind, node.value with
  | .compExpr, some (.text spelling) => .unknownComparison spelling
  | .boolValue, _ => .wrongValue .boolValue "a boolean value"
  | .identifier, _ => .wrongValue .identifier "a string name"
  | .intValue, _ => .wrongValue .intValue "an integer value"
  | kind, _ => .wrongValue kind "a string value"

/-- What is to be reported about a node. Misplaced tokens come before a bad value, and a bad value
before a missing operator. -/
inductive Deserves : Outline → Defect → Prop
  | tokens {node : Outline} (misplaced : ¬ node.TokensFit) :
      Deserves node (.misplacedTokens node.kind)
  | value {node : Outline} (placed : node.TokensFit) (misfit : ¬ node.ValueFits) :
      Deserves node node.valueDefect
  | operator {node : Outline} (placed : node.TokensFit) (fits : node.ValueFits)
      (missing : ¬ node.OperatorGiven) : Deserves node .missingOperator

theorem Deserves.not_locallyValid {node : Outline} {defect : Defect}
    (deserved : node.Deserves defect) : ¬ node.LocallyValid := by
  intro valid
  cases deserved with
  | tokens misplaced => exact misplaced valid.tokens
  | value _ misfit => exact misfit valid.value
  | operator _ _ missing => exact missing valid.operator

end Outline

theorem Comparison.mem_spellings_iff {spelling : String} :
    spelling ∈ ["<", ">", "<=", ">=", "==", "!="] ↔
      ∃ operator, ofText? spelling = some operator := by
  have spellings : ["<", ">", "<=", ">=", "==", "!="] = all.map text := rfl
  have complete (operator : Comparison) : operator ∈ all := by cases operator <;> simp [all]
  rw [spellings, List.mem_map]
  refine exists_congr fun operator => ?_
  rw [ofText?_eq_some_iff, and_iff_right (complete operator), eq_comm]

/-! ## Trees and their outlines -/

/-- Kinds whose nodes keep the value they are given. -/
def Kind.carriesValue : Kind → Bool
  | .declaration | .compExpr | .boolValue | .identifier | .intValue => true
  | _ => false

namespace Outline

/-- The label has the kind and the data of the node. A value that the kind does not carry is left
out. -/
structure Labels (node : Outline) (label : Label) : Prop where
  kind : label.kind = node.kind
  tokens : label.tokens = node.tokens
  payload : label.payload = if node.kind.carriesValue then node.value else none

mutual

/-- The tree has the shape of the outline, with the same children in the same order, and at every
node the kind and the data that the outline gives. -/
def Describes : Outline → Node → Prop
  | ⟨kind, value, tokens, outlines⟩, ⟨label, nodes⟩ =>
    Labels ⟨kind, value, tokens, outlines⟩ label ∧ DescribeAll outlines nodes

def DescribeAll : List Outline → List Node → Prop
  | [], [] => True
  | outline :: outlines, node :: nodes => outline.Describes node ∧ DescribeAll outlines nodes
  | _, _ => False

end

/-! ## Reading one node -/

def readLabel (node : Outline) : Except Defect Label :=
  toLabel node.kind node.value node.tokens node.children.length

/-- Reading the node either gives its label, and then the node is valid, or reports what the node
deserves. -/
inductive Judged (node : Outline) : Except Defect Label → Prop
  | valid {label : Label} (valid : node.LocallyValid) (labelled : node.Labels label) :
      Judged node (.ok label)
  | defect {defect : Defect} (deserved : node.Deserves defect) : Judged node (.error defect)

theorem misplaced_iff {node : Outline} :
    (!node.tokens.isEmpty && !node.kind.carriesTokens) = true ↔ ¬ node.TokensFit := by
  have carries : node.kind.carriesTokens = true ↔
      node.kind = .boolExpr ∨ node.kind = .notExpr ∨ node.kind = .unaExpr := by
    cases node.kind <;> simp [Kind.carriesTokens]
  rw [TokensFit, ← carries]
  simp

private theorem toLabel_compExpr (value : Option Payload) (childCount : Nat) :
    toLabel .compExpr value [] childCount =
      match value with
      | none => if 1 < childCount then .error .missingOperator else .ok (.compExpr none)
      | some (.text spelling) =>
        match Comparison.ofText? spelling with
        | some operator => .ok (.compExpr (some operator))
        | none => .error (.unknownComparison spelling)
      | some _ => .error (.wrongValue .compExpr "a string value") := by
  cases value with
  | none =>
      by_cases several : 1 < childCount <;>
        simp [several, toLabel, comparison, optionalText, bind, Except.bind, pure, Except.pure,
          throw, throwThe, MonadExceptOf.throw]
  | some payload =>
      cases payload with
      | text spelling =>
          cases found : Comparison.ofText? spelling <;>
            simp [found, toLabel, comparison, optionalText, bind, Except.bind, pure, Except.pure,
              throw, throwThe, MonadExceptOf.throw]
      | bool _ | integer _ => rfl

private theorem judged_compExpr {value : Option Payload} {children : List Outline}
    (placed : TokensFit ⟨.compExpr, value, [], children⟩) :
    Judged ⟨.compExpr, value, [], children⟩ (toLabel .compExpr value [] children.length) := by
  rw [toLabel_compExpr]
  cases value with
  | none =>
      by_cases several : 1 < children.length
      · have missing : ¬ OperatorGiven ⟨.compExpr, none, [], children⟩ := fun given =>
          absurd (given rfl rfl) (Nat.not_le.mpr several)
        rw [if_pos several]
        exact .defect (.operator placed (.inl rfl) missing)
      · have given : OperatorGiven ⟨.compExpr, none, [], children⟩ := fun _ _ =>
          Nat.not_lt.mp several
        rw [if_neg several]
        exact .valid ⟨placed, .inl rfl, given⟩ ⟨rfl, rfl, rfl⟩
  | some payload =>
      cases payload with
      | text spelling =>
          have fits : ValueFits ⟨.compExpr, some (.text spelling), [], children⟩ ↔
              ∃ operator, Comparison.ofText? spelling = some operator := by
            simp [ValueFits, kind, value, ← Comparison.mem_spellings_iff]
          cases found : Comparison.ofText? spelling with
          | none =>
              have misfit : ¬ ValueFits ⟨.compExpr, some (.text spelling), [], children⟩ := by
                rw [fits, found]
                simp
              simp only [found]
              exact .defect (.value placed misfit)
          | some operator =>
              have spelled := Comparison.ofText?_eq_some_iff.mp found
              simp only [found]
              have given : OperatorGiven ⟨.compExpr, some (.text spelling), [], children⟩ :=
                fun _ absent => absurd absent (Option.some_ne_none _)
              refine .valid ⟨placed, fits.mpr ⟨operator, found⟩, given⟩ ⟨rfl, rfl, ?_⟩
              rw [spelled]
              rfl
      | bool _ | integer _ =>
          exact .defect (.value placed (by simp [ValueFits, kind, Outline.value]))

private theorem judged_declaration {value : Option Payload} {children : List Outline}
    (placed : TokensFit ⟨.declaration, value, [], children⟩) :
    Judged ⟨.declaration, value, [], children⟩
      (toLabel .declaration value [] children.length) := by
  cases value with
  | none => exact .valid ⟨placed, .inl rfl, nofun⟩ ⟨rfl, rfl, rfl⟩
  | some payload =>
      cases payload with
      | text typeName => exact .valid ⟨placed, .inr ⟨typeName, rfl⟩, nofun⟩ ⟨rfl, rfl, rfl⟩
      | bool _ | integer _ =>
          exact .defect (.value placed (by simp [ValueFits, kind, Outline.value]))

/-- Literals and identifiers must have a value, and only one type of value will do. -/
theorem judged_leaf {kind : Kind} {value : Option Payload} {children : List Outline}
    (leaf : kind = .boolValue ∨ kind = .identifier ∨ kind = .intValue)
    (placed : TokensFit ⟨kind, value, [], children⟩) :
    Judged ⟨kind, value, [], children⟩ (toLabel kind value [] children.length) := by
  have valid (fits : ValueFits ⟨kind, value, [], children⟩) :
      LocallyValid ⟨kind, value, [], children⟩ := by
    refine ⟨placed, fits, fun other => ?_⟩
    obtain rfl : kind = .compExpr := other
    simp at leaf
  have misfit (other : ¬ ValueFits ⟨kind, value, [], children⟩) :
      Judged ⟨kind, value, [], children⟩ (.error (valueDefect ⟨kind, value, [], children⟩)) :=
    .defect (.value placed other)
  rcases leaf with rfl | rfl | rfl
  · cases value with
    | none => exact misfit nofun
    | some payload =>
        cases payload with
        | bool value => exact .valid (valid ⟨value, rfl⟩) ⟨rfl, rfl, rfl⟩
        | integer _ | text _ => exact misfit nofun
  · cases value with
    | none => exact misfit nofun
    | some payload =>
        cases payload with
        | text name => exact .valid (valid ⟨name, rfl⟩) ⟨rfl, rfl, rfl⟩
        | bool _ | integer _ => exact misfit nofun
  · cases value with
    | none => exact misfit nofun
    | some payload =>
        cases payload with
        | integer value => exact .valid (valid ⟨value, rfl⟩) ⟨rfl, rfl, rfl⟩
        | bool _ | text _ => exact misfit nofun

private theorem judged_readLabel (node : Outline) : node.Judged node.readLabel := by
  by_cases placed : node.TokensFit
  · rcases node with ⟨kind, value, tokens, children⟩
    cases tokens with
    | nil =>
        cases kind with
        | declaration => exact judged_declaration placed
        | compExpr => exact judged_compExpr placed
        | boolValue | identifier | intValue => exact judged_leaf (by simp) placed
        | _ => exact .valid ⟨placed, trivial, nofun⟩ ⟨rfl, rfl, rfl⟩
    | cons token tokens =>
        cases kind with
        | boolExpr | notExpr | unaExpr => exact .valid ⟨placed, trivial, nofun⟩ ⟨rfl, rfl, rfl⟩
        | _ => exact absurd placed (by simp [TokensFit, Outline.tokens, Outline.kind])
  · have reported : node.readLabel = .error (.misplacedTokens node.kind) :=
      if_pos (misplaced_iff.mpr placed)
    rw [reported]
    exact .defect (.tokens placed)

theorem Deserves.unique {node : Outline} {defect other : Defect}
    (deserved : node.Deserves defect) (deservedToo : node.Deserves other) : defect = other := by
  cases deserved with
  | tokens misplaced =>
      cases deservedToo with
      | tokens => rfl
      | value placed | operator placed => exact absurd placed misplaced
  | value placed misfit =>
      cases deservedToo with
      | tokens misplaced => exact absurd placed misplaced
      | value => rfl
      | operator _ fits => exact absurd fits misfit
  | operator placed fits missing =>
      cases deservedToo with
      | tokens misplaced => exact absurd placed misplaced
      | value _ misfit => exact absurd fits misfit
      | operator => rfl

private theorem readLabel_eq_error_iff {node : Outline} {defect : Defect} :
    node.readLabel = .error defect ↔ node.Deserves defect := by
  have judged := node.judged_readLabel
  constructor
  · intro reported
    rw [reported] at judged
    cases judged with
    | defect deserved => exact deserved
  · intro deserved
    cases read : node.readLabel with
    | ok label =>
        rw [read] at judged
        cases judged with
        | valid valid => exact absurd valid deserved.not_locallyValid
    | error found =>
        rw [read] at judged
        cases judged with
        | defect deservedToo => rw [deserved.unique deservedToo]

private theorem readLabel_eq_ok {node : Outline} {label : Label}
    (read : node.readLabel = .ok label) :
    node.LocallyValid ∧ node.Labels label := by
  have judged := node.judged_readLabel
  rw [read] at judged
  cases judged with
  | valid valid labelled => exact ⟨valid, labelled⟩

/-! ## Reading all nodes -/

def report? {α : Type} : Except Defect α → Option Defect
  | .ok _ => none
  | .error defect => some defect

private theorem report?_eq_some_iff {α : Type} {outcome : Except Defect α} {defect : Defect} :
    report? outcome = some defect ↔ outcome = .error defect := by
  cases outcome <;> simp [report?]

theorem report?_eq_none_iff {α : Type} {outcome : Except Defect α} :
    report? outcome = none ↔ ∃ result, outcome = .ok result := by
  cases outcome <;> simp [report?]

theorem report?_readLabel_eq_none_iff {node : Outline} :
    report? node.readLabel = none ↔ node.LocallyValid := by
  rw [report?_eq_none_iff]
  constructor
  · intro read
    obtain ⟨label, read⟩ := read
    exact (readLabel_eq_ok read).1
  · intro valid
    cases read : node.readLabel with
    | ok label => exact ⟨label, rfl⟩
    | error defect => exact absurd valid (readLabel_eq_error_iff.mp read).not_locallyValid

private theorem report?_bind {α β : Type} (step : Except Defect α) (next : α → Except Defect β)
    {later : Option Defect} (continued : ∀ result, report? (next result) = later) :
    report? (step >>= next) = (report? step).or later := by
  cases step with
  | error defect => rfl
  | ok result => exact continued result

private theorem toNode_mk (kind : Kind) (value : Option Payload) (tokens : List String)
    (children : List Outline) :
    toNode ⟨kind, value, tokens, children⟩ = (do
      let label ← readLabel ⟨kind, value, tokens, children⟩
      return ⟨label, ← toNodes children⟩) := by
  rw [toNode]
  rfl

mutual

theorem report?_toNode :
    ∀ outline : Outline, report? outline.toNode =
      outline.nodes.findSome? fun node => report? node.readLabel
  | ⟨kind, value, tokens, children⟩ => by
      have below (label : Label) : report? (do return Node.mk label (← toNodes children)) =
          report? (toNodes children) := by
        cases toNodes children <;> rfl
      rw [toNode_mk, report?_bind _ _ below, nodes, List.findSome?_cons,
        ← report?_toNodes children]
      cases report? (readLabel ⟨kind, value, tokens, children⟩) <;> rfl

private theorem report?_toNodes :
    ∀ outlines : List Outline, report? (toNodes outlines) =
      (nodesAll outlines).findSome? fun node => report? node.readLabel
  | [] => rfl
  | outline :: rest => by
      rw [toNodes, nodesAll, List.findSome?_append, ← report?_toNode outline,
        ← report?_toNodes rest]
      refine report?_bind _ _ fun node => ?_
      cases toNodes rest <;> rfl

end

mutual

theorem describes_of_toNode :
    ∀ {outline : Outline} {node : Node}, outline.toNode = .ok node → outline.Describes node
  | ⟨kind, value, tokens, children⟩, node, read => by
      rw [toNode_mk] at read
      obtain ⟨label, labelled, read⟩ := bind_eq_ok read
      obtain ⟨nodes, below, read⟩ := bind_eq_ok read
      cases read
      rw [Describes]
      exact ⟨(readLabel_eq_ok labelled).2, describeAll_of_toNodes below⟩

private theorem describeAll_of_toNodes :
    ∀ {outlines : List Outline} {nodes : List Node}, toNodes outlines = .ok nodes →
      DescribeAll outlines nodes
  | [], nodes, read => by
      cases read
      rw [DescribeAll]
      trivial
  | outline :: rest, nodes, read => by
      rw [toNodes] at read
      obtain ⟨node, first, read⟩ := bind_eq_ok read
      obtain ⟨others, later, read⟩ := bind_eq_ok read
      cases read
      rw [DescribeAll]
      exact ⟨describes_of_toNode first, describeAll_of_toNodes later⟩

end

end Outline

/-- An outline is a tree exactly if every node of it is valid by itself, and then it describes the
tree that is read from it. Otherwise the tree error of the first node that is not valid is reported,
parents before children and children from left to right. -/
theorem first_defect_is_reported (outline : Outline) :
    ((∃ node, outline.toNode = .ok node) ↔ ∀ node ∈ outline.nodes, node.LocallyValid) ∧
    (∀ node, outline.toNode = .ok node → outline.Describes node) ∧
    (∀ defect, outline.toNode = .error defect ↔
      ∃ before bad after, outline.nodes = before ++ bad :: after ∧
        (∀ node ∈ before, node.LocallyValid) ∧ ¬ bad.LocallyValid ∧ bad.Deserves defect) ∧
    (∀ defect, (LoadError.defect defect).code = some "sema::tree" ∧
      (LoadError.defect defect).message = "Malformed syntax tree: " ++ defect.message) := by
  refine ⟨?_, fun node => Outline.describes_of_toNode, fun defect => ?_, fun _ => ⟨rfl, rfl⟩⟩
  · rw [← Outline.report?_eq_none_iff, Outline.report?_toNode, List.findSome?_eq_none_iff]
    simp only [Outline.report?_readLabel_eq_none_iff]
  · rw [← Outline.report?_eq_some_iff, Outline.report?_toNode, List.findSome?_eq_some_iff]
    simp only [Outline.report?_eq_some_iff, Outline.readLabel_eq_error_iff,
      Outline.report?_readLabel_eq_none_iff]
    refine exists_congr fun before => exists_congr fun bad => exists_congr fun after =>
      and_congr_right fun _ => ?_
    constructor
    · intro found
      exact ⟨found.2, found.1.not_locallyValid, found.1⟩
    · intro found
      exact ⟨found.2.2, found.1⟩

-- The bad value of the first operand is reported, not the misplaced token of the second.
example :
    (Outline.mk .addExpr none [] [⟨.boolValue, none, [], []⟩, ⟨.stmt, none, ["!"], []⟩]).toNode =
      .error (.wrongValue .boolValue "a boolean value") := rfl

end TreeCheck
