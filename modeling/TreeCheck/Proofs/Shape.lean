import TreeCheck.Proofs.Gathering
import TreeCheck.Proofs.Script

/-!
# Well-shaped programs

The rules find out about a badly shaped tree as they go, and may stop at a broken rule before they
do. What they ask of the shape can nevertheless be said in advance, node by node: `Node.Legible`. A
program all of whose walked nodes are legible is never refused for its shape, and no other program
is accepted.
-/

set_option autoImplicit false

namespace TreeCheck

namespace Node

/-- The child at `index` is an identifier. -/
def HasIdentifierAt (node : Node) (index : Nat) : Prop :=
  node.children[index]?.map kind = some .identifier

/-- The first child of a case is an identifier or an integer. -/
def Labelled (case : Node) : Prop :=
  case.children.head?.map kind = some .identifier ∨ case.children.head?.map kind = some .intValue

/-- The children that the rule of a node reads by itself are there and of the kinds it can read. A
program and a case have no rule of their own; the cases of a switch are read with it. -/
def Legible (node : Node) : Prop :=
  match node.label with
  | .program | .caseStmt => False
  | .declaration _ => node.HasIdentifierAt 0 ∧ (1 < node.children.length → node.HasIdentifierAt 1)
  | .ifStmt | .whileStmt => 1 ≤ node.children.length
  | .notExpr tokens => tokens ≠ [] → 1 ≤ node.children.length
  | .assignStmt => node.HasIdentifierAt 0 ∧ 2 ≤ node.children.length
  | .enumStmt => 1 ≤ node.children.length ∧ ∀ child ∈ node.children, child.kind = .identifier
  | .switchStmt =>
    node.HasIdentifierAt 0 ∧ ∀ arm ∈ node.children.tail, arm.kind = .caseStmt → arm.Labelled
  | _ => True

/-- A program whose walked nodes are legible. -/
structure WellShaped (program : Node) : Prop where
  root : program.kind = .program
  legible : ∀ node ∈ program.walked, node.Legible

end Node

/-- Everything walked from a child in this position is legible. A child that is not walked is read
by its parent; if it is a case, then by its label. -/
def Position.Legible (position : Position) (child : Node) : Prop :=
  (position.walks child.label = true → ∀ node ∈ child.walk, node.Legible) ∧
    (position.walks child.label = false → child.kind = .caseStmt → child.Labelled)

theorem Position.forall_mem_walked_iff {position : Position} {children : List Node} :
    (∀ node ∈ position.walked children, node.Legible) ↔
      ∀ child ∈ children, position.walks child.label = true →
        ∀ node ∈ child.walk, node.Legible := by
  rw [walked]
  constructor
  · intro legible child member walks node below
    exact legible node (List.mem_flatMap.mpr ⟨child, member, by rwa [if_pos walks]⟩)
  · intro legible node member
    obtain ⟨child, member, below⟩ := List.mem_flatMap.mp member
    split at below
    · rename_i walks
      exact legible child member walks node below
    · cases below

/-- Where no case is read by its parent, it is only the walked nodes that matter. -/
theorem Position.forall_legible_iff {position : Position} {children : List Node}
    (outside : ∀ subject, position ≠ .arm subject) :
    (∀ child ∈ children, position.Legible child) ↔
      ∀ node ∈ position.walked children, node.Legible := by
  rw [forall_mem_walked_iff]
  refine forall₂_congr fun child _ => and_iff_left fun unwalked => ?_
  rcases walks_eq_false_iff.mp unwalked with ⟨-, name, named⟩ | ⟨subject, same, -⟩
  · rw [Node.kind, named]
    intro other
    cases other
  · exact absurd same (outside subject)

theorem Label.kind_eq_caseStmt_iff {label : Label} :
    label.kind = .caseStmt ↔ label = .caseStmt := by
  cases label <;> simp [kind]

theorem Label.kind_eq_program_iff {label : Label} : label.kind = .program ↔ label = .program := by
  cases label <;> simp [kind]

theorem Position.forall_legible_arm_iff {subject : Ty} {arms : List Node} :
    (∀ arm ∈ arms, (Position.arm subject).Legible arm) ↔
      (∀ arm ∈ arms, arm.kind = .caseStmt → arm.Labelled) ∧
        ∀ node ∈ (Position.arm subject).walked arms, node.Legible := by
  rw [forall_mem_walked_iff, ← forall₂_and]
  refine forall₂_congr fun arm _ => ?_
  rw [and_comm, Legible]
  refine and_congr_right fun _ => ?_
  constructor
  · intro labelled case
    exact labelled (by rw [Label.kind_eq_caseStmt_iff.mp case]; rfl) case
  · exact fun labelled _ => labelled

/-- What an outcome tells about a shape. A broken rule tells nothing, since it may have been found
before the shape was looked at. -/
def Reveals {α : Type} (outcome : Except Fault α) (shape : Prop) : Prop :=
  match outcome with
  | .ok _ => shape
  | .error (.malformed _) => ¬ shape
  | .error (.violation _) => True

namespace Check

/-- The step succeeds only where the shape is as demanded, and finds a shape that it cannot read
only where it is not. -/
def Demands {α : Type} (step : Check α) (shape : Prop) : Prop :=
  ∀ walk : Walk, Reveals (step walk).1 shape

theorem demands_pure {α : Type} (value : α) {shape : Prop} (holds : shape) :
    (pure value : Check α).Demands shape :=
  fun _ => holds

private theorem demands_reject {α : Type} (broken : Violation) (shape : Prop) :
    (reject broken : Check α).Demands shape :=
  fun _ => trivial

theorem demands_malformed {α : Type} (found : Malformed) {shape : Prop} (fails : ¬ shape) :
    (malformed found : Check α).Demands shape :=
  fun _ => fails

theorem Demands.congr {α : Type} {step : Check α} {shape other : Prop}
    (demanded : step.Demands shape) (same : shape ↔ other) : step.Demands other :=
  propext same ▸ demanded

theorem Demands.bind {α β : Type} {step : Check α} {next : α → Check β} {first second : Prop}
    (demanded : step.Demands first) (continued : ∀ value, (next value).Demands second) :
    (step >>= next).Demands (first ∧ second) := by
  intro walk
  have start := demanded walk
  rcases run : step walk with ⟨fault | value, reached⟩
  · rw [run] at start
    rw [bind_of_error next run]
    cases fault with
    | violation broken => trivial
    | malformed found => exact fun both => start both.1
  · rw [run] at start
    rw [bind_of_ok next run]
    have rest := continued value reached
    generalize (next value reached).1 = outcome at rest
    match outcome with
    | .ok _ => exact ⟨start, rest⟩
    | .error (.malformed _) => exact fun both => rest both.2
    | .error (.violation _) => trivial

/-- A step that demands nothing may precede any other. -/
theorem Demands.skip {α β : Type} {step : Check α} {next : α → Check β} {shape : Prop}
    (idle : step.Demands True) (continued : ∀ value, (next value).Demands shape) :
    (step >>= next).Demands shape :=
  (idle.bind continued).congr (and_iff_right trivial)

/-- A step that demands nothing may follow any other. -/
theorem Demands.followed {α β : Type} {step : Check α} {next : α → Check β} {shape : Prop}
    (demanded : step.Demands shape) (idle : ∀ value, (next value).Demands True) :
    (step >>= next).Demands shape :=
  (demanded.bind idle).congr (and_iff_left trivial)

theorem demands_emit (event : Event) : (emit event).Demands True :=
  fun _ => trivial

theorem demands_count (update : Metrics → Metrics) : (count update).Demands True :=
  fun _ => trivial

theorem demands_lookup (name : String) : (lookup name).Demands True :=
  fun _ => trivial

theorem demands_current : current.Demands True :=
  fun _ => trivial

theorem demands_declare (name : String) (type : Ty) : (declare name type).Demands True := by
  intro walk
  rcases declare_cases name type walk with ⟨-, stopped⟩ | ⟨_, -, declared⟩
  · rw [stopped]
    trivial
  · rw [declared]
    trivial

theorem demands_require {α : Type} {condition : Prop} [Decidable condition] (value : α)
    (broken : Violation) :
    (if condition then pure value else reject broken : Check α).Demands True := by
  split
  · exact demands_pure value trivial
  · exact demands_reject broken True

private theorem demands_identifier (parent : Kind) (index : Nat) (child : Node) :
    (identifier parent index child).Demands (child.kind = .identifier) := by
  rcases child with ⟨label, below⟩
  cases label with
  | identifier name => exact demands_pure name rfl
  | _ => exact demands_malformed _ (by simp [Node.kind, Label.kind])

private theorem demands_identifierAt (parent : Kind) (children : List Node) (index : Nat) :
    (identifierAt parent children index).Demands
      (children[index]?.map Node.kind = some .identifier) := by
  rw [identifierAt]
  cases children[index]? with
  | none => exact demands_malformed _ (by simp)
  | some child => exact (demands_identifier parent index child).congr (by simp)

theorem demands_resolve (name : String) : (resolve name).Demands True := by
  refine (demands_lookup name).skip fun found => ?_
  cases found with
  | none => exact demands_reject _ _
  | some type => exact demands_pure type trivial

private theorem demands_caseLabel (subject : Ty) (children : List Node) :
    (caseLabel subject children).Demands (Node.mk .caseStmt children).Labelled := by
  cases children with
  | nil => exact demands_malformed _ (by simp [Node.Labelled])
  | cons label body =>
      rcases label with ⟨label, below⟩
      cases label with
      | identifier name =>
          have labelled : (Node.mk .caseStmt (⟨.identifier name, below⟩ :: body)).Labelled :=
            .inl rfl
          exact ((demands_lookup name).skip fun _ => demands_require _ _).congr
            (iff_of_true trivial labelled)
      | intValue value =>
          have labelled : (Node.mk .caseStmt (⟨.intValue value, below⟩ :: body)).Labelled :=
            .inr rfl
          exact (demands_require _ _).congr (iff_of_true trivial labelled)
      | _ => exact demands_malformed _ (by simp [Node.Labelled, Node.kind, Label.kind])

/-! ## Declarations -/

private theorem demands_declareVariable (typeName : Option String) (children : List Node) :
    (declareVariable typeName children).Demands
      (Node.mk (.declaration typeName) children).Legible := by
  have named := demands_identifierAt .declaration children
  rw [declareVariable]
  split
  · rename_i several
    refine Demands.congr ((named 0).bind fun enumType => (named 1).followed fun name =>
      demands_current.skip fun session => ?_) ?_
    · dsimp only
      split
      · exact (demands_emit _).skip fun _ => demands_declare _ _
      · exact demands_reject _ _
    · exact and_congr_right fun _ => ⟨fun second _ => second, fun second => second several⟩
  · rename_i single
    refine Demands.congr ((named 0).followed fun name => demands_current.skip fun session =>
      (demands_emit _).skip fun _ => demands_declare _ _) ?_
    exact (and_iff_left fun several => absurd several single).symm

private theorem demands_declareValues (index : Nat) (children : List Node) :
    (declareValues index children).Demands (∀ child ∈ children, child.kind = .identifier) := by
  induction children generalizing index with
  | nil =>
      rw [declareValues]
      exact demands_pure () (by simp)
  | cons child rest ih =>
      rw [declareValues]
      refine Demands.congr ((demands_identifier .enumStmt index child).bind fun name =>
        (demands_declare name .enumValue).skip fun _ => ih (index + 1)) ?_
      simp only [List.forall_mem_cons]

private theorem demands_declareEnum (children : List Node) :
    (declareEnum children).Demands (Node.mk .enumStmt children).Legible := by
  cases children with
  | nil => exact demands_malformed _ fun legible => absurd legible.1 (by simp)
  | cons first values =>
      rw [declareEnum]
      refine Demands.congr ((demands_identifier .enumStmt 0 first).bind fun typeName =>
        (demands_count _).skip fun _ => (demands_emit _).skip fun _ =>
          (demands_declare typeName .enumType).skip fun _ =>
            demands_declareValues 1 values) ?_
      simp [Node.Legible]

/-! ## The walk -/

private theorem demands_read {child : Node}
    (demanded : (visit child).Demands (∀ node ∈ child.walk, node.Legible)) (position : Position) :
    (read position child).Demands (position.Legible child) := by
  revert demanded
  refine read_cases position child (fun walks => ?_) (fun name below => ?_)
    fun subject below => ?_
  · intro demanded
    rw [read_of_walks walks]
    exact demanded.congr (by simp [Position.Legible, walks])
  · intro _
    refine (demands_resolve name).congr ?_
    simp [Position.Legible, Position.walks, Node.kind, Label.kind]
  · intro _
    refine (demands_caseLabel subject below).congr ?_
    simp [Position.Legible, Position.walks, Node.kind, Label.kind]

private theorem demands_visitEach {children : List Node}
    (demanded : ∀ child ∈ children, (visit child).Demands (∀ node ∈ child.walk, node.Legible))
    (position : Position) (admitted : Admission) (earlier : List Ty) :
    (visitEach position admitted earlier children).Demands
      (∀ child ∈ children, position.Legible child) := by
  induction children generalizing earlier with
  | nil =>
      rw [visitEach_nil]
      exact demands_pure earlier (by simp)
  | cons child rest ih =>
      obtain ⟨first, others⟩ := List.forall_mem_cons.mp demanded
      have remaining : ∀ type,
          (if admitted earlier type then visitEach position admitted (earlier ++ [type]) rest
            else reject .invalidExpressionType).Demands
            (∀ child ∈ rest, position.Legible child) := by
        intro type
        split
        · exact ih others (earlier ++ [type])
        · exact demands_reject _ _
      rw [visitEach_cons]
      exact ((demands_read first position).bind remaining).congr List.forall_mem_cons.symm

private theorem demands_judge (gathering : Gathering) (types : List Ty) :
    (judge gathering types).Demands True := by
  refine (demands_count _).skip fun _ => ?_
  split
  · exact demands_pure _ trivial
  · exact demands_reject _ _

private theorem demands_gather {children : List Node} (gathering : Gathering) (kind : Kind)
    (demanded : ∀ child ∈ children, (visit child).Demands (∀ node ∈ child.walk, node.Legible)) :
    (gather gathering kind children).Demands
      ((gathering.needsChild = true → 1 ≤ children.length) ∧
        ∀ child ∈ gathering.operands children, gathering.position.Legible child) := by
  rw [gather]
  refine (demands_emit _).skip fun _ => (demands_count _).skip fun _ => ?_
  split
  · rename_i missing
    obtain ⟨needed, empty⟩ := Bool.and_eq_true_iff.mp missing
    refine demands_malformed _ fun shape => ?_
    have present := shape.1 needed
    rw [List.isEmpty_iff.mp empty] at present
    cases present
  · rename_i present
    have read := demands_visitEach
      (fun child member => demanded child (gathering.operands_subset children member))
      gathering.position gathering.admitted []
    refine (read.followed fun types => demands_judge gathering types).congr ?_
    refine (and_iff_right fun needed => ?_).symm
    cases children with
    | nil => exact absurd (by rw [needed]; rfl) present
    | cons child rest => exact Nat.le_add_left 1 rest.length

end Check

/-- What a plan demands is what makes the node legible. -/
theorem Label.legible_iff_of_gathering {label : Label} {children : List Node}
    {gathering : Gathering} (planned : label.gathering? children.length = some gathering) :
    (Node.mk label children).Legible ↔ (gathering.needsChild = true → 1 ≤ children.length) := by
  cases label with
  | ifStmt | whileStmt =>
      cases planned
      exact ⟨fun present _ => present, fun present => present rfl⟩
  | addExpr | mulExpr =>
      cases planned
      split <;> simp [Node.Legible, Gathering.arithmetic]
  | boolExpr tokens | notExpr tokens | unaExpr tokens =>
      cases tokens <;> cases planned <;>
        simp [Node.Legible, Gathering.connective, Gathering.negation]
  | _ => cases planned <;> simp [Node.Legible, Gathering.comparison]

namespace Check

private theorem demands_assignValue {children : List Node}
    (demanded : ∀ child ∈ children, (visit child).Demands (∀ node ∈ child.walk, node.Legible))
    (name : String) (target : Option Ty) :
    (assignValue children name target).Demands
      (2 ≤ children.length ∧ ∀ node ∈ Node.walkBelow .assignStmt 0 children, node.Legible) := by
  rw [assignValue, Node.walkBelow_assignStmt]
  cases found : children[1]? with
  | none =>
      refine demands_malformed _ fun shape => ?_
      exact absurd (List.getElem?_eq_none_iff.mp found) (Nat.not_le_of_lt shape.1)
  | some value =>
      refine ((demanded value (List.mem_of_getElem? found)).followed fun type =>
        demands_require _ _).congr ?_
      exact (and_iff_right (List.getElem?_eq_some_iff.mp found).1).symm

private theorem demands_switchArms {children : List Node}
    (demanded : ∀ child ∈ children, (visit child).Demands (∀ node ∈ child.walk, node.Legible))
    (name : String) (subject : Option Ty) :
    (switchArms children name subject).Demands
      ((∀ arm ∈ children.tail, arm.kind = .caseStmt → arm.Labelled) ∧
        ∀ node ∈ Node.walkBelow .switchStmt 0 children, node.Legible) := by
  rw [switchArms]
  split
  · exact demands_reject _ _
  · rename_i type _
    have arms := fun child member => demanded child (List.mem_of_mem_tail member)
    rw [Node.walkBelow_switchStmt_tail type, ← Position.forall_legible_arm_iff]
    exact (demands_visitEach arms (.arm type) .any []).followed fun _ => demands_pure _ trivial

private theorem demands_of_children (label : Label) (children : List Node)
    (demanded : ∀ child ∈ children, (visit child).Demands (∀ node ∈ child.walk, node.Legible)) :
    (visit ⟨label, children⟩).Demands
      (∀ node ∈ (Node.mk label children).walk, node.Legible) := by
  suffices (visit ⟨label, children⟩).Demands ((Node.mk label children).Legible ∧
      ∀ node ∈ Node.walkBelow label 0 children, node.Legible) by
    rw [Node.walk]
    exact this.congr List.forall_mem_cons.symm
  have childless : (∀ place below, label.leadsTo place below = false) →
      ((Node.mk label children).Legible ↔ (Node.mk label children).Legible ∧
        ∀ node ∈ Node.walkBelow label 0 children, node.Legible) := by
    intro leads
    rw [Node.walkBelow_eq_nil fun place _ => leads place]
    exact (and_iff_left (by simp)).symm
  cases planned : label.gathering? children.length with
  | some gathering =>
      rw [visit_of_gathering planned, Label.legible_iff_of_gathering planned,
        Node.walkBelow_of_gathering planned,
        ← Position.forall_legible_iff gathering.noCase]
      exact demands_gather gathering label.kind demanded
  | none =>
      cases label with
      | program | caseStmt =>
          rw [visit]
          exact (demands_emit _).skip fun _ => demands_malformed _ fun shape => shape.1
      | declaration typeName =>
          rw [visit]
          refine Demands.congr ?_ (childless fun _ _ => rfl)
          exact (demands_emit _).skip fun _ =>
            (demands_declareVariable typeName children).followed fun _ => demands_pure _ trivial
      | enumStmt =>
          rw [visit]
          refine Demands.congr ?_ (childless fun _ _ => rfl)
          exact (demands_emit _).skip fun _ =>
            (demands_declareEnum children).followed fun _ => demands_pure _ trivial
      | assignStmt =>
          rw [visit_assignStmt]
          refine Demands.congr ?_ and_assoc.symm
          exact (demands_emit _).skip fun _ => (demands_identifierAt _ _ 0).bind fun name =>
            (demands_lookup name).skip fun target => demands_assignValue demanded name target
      | switchStmt =>
          rw [visit_switchStmt]
          refine Demands.congr ?_ and_assoc.symm
          exact (demands_emit _).skip fun _ => (demands_identifierAt _ _ 0).bind fun name =>
            (demands_lookup name).skip fun subject => demands_switchArms demanded name subject
      | boolValue _ | intValue _ | identifier _ =>
          rw [visit]
          refine Demands.congr ?_ (childless fun _ _ => rfl)
          exact (demands_emit _).skip fun _ => demands_pure _ trivial
      | boolExpr tokens | notExpr tokens | unaExpr tokens => cases tokens <;> cases planned
      | _ => cases planned

/-- The walk of a tree demands that every node it may come to is legible. -/
theorem demands_visit (node : Node) :
    (visit node).Demands (∀ walked ∈ node.walk, walked.Legible) :=
  Node.childrenInduction demands_of_children node

end Check

/-! ## Programs -/

theorem Session.check_reveals (session : Session) (program : Node) :
    Reveals (session.check program).outcome program.WellShaped := by
  have read : ∀ items,
      Reveals (session.readItems items).1 (Node.mk .program items).WellShaped := by
    intro items
    have demanded := Check.demands_visitEach
      (fun item (_ : item ∈ items) => Check.demands_visit item) .plain .any []
    have shape : (∀ item ∈ items, Position.plain.Legible item) ↔
        (Node.mk .program items).WellShaped := by
      rw [Position.forall_legible_iff fun _ => Position.noConfusion]
      exact ⟨fun legible => ⟨rfl, legible⟩, fun shaped => shaped.legible⟩
    exact demanded.congr shape _
  refine Session.check_cases session program ?_ ?_ ?_
  · intro node other shaped
    exact other (Label.kind_eq_program_iff.mp shaped.root)
  · intro items fault reached stopped
    have shape := read items
    rw [stopped] at shape
    cases fault with
    | violation broken => trivial
    | malformed found => exact shape
  · intro items types reached done
    have shape := read items
    rw [done] at shape
    exact shape

/-- A well-shaped program is accepted or breaks a rule of the language, and only well-shaped
programs are accepted. -/
theorem analyze_respects_shape (program : Node) :
    (program.WellShaped →
      (∃ metrics, analyze program = .ok metrics) ∨
        ∃ broken, analyze program = .error (.violation broken)) ∧
    (∀ metrics, analyze program = .ok metrics → program.WellShaped) := by
  have revealed : Reveals (analyze program) program.WellShaped := Session.check_reveals {} program
  constructor
  · intro shaped
    match outcome : analyze program with
    | .ok metrics => exact .inl ⟨metrics, rfl⟩
    | .error (.violation broken) => exact .inr ⟨broken, rfl⟩
    | .error (.malformed found) =>
        rw [outcome] at revealed
        exact absurd shaped revealed
  · intro metrics accepted
    rw [accepted] at revealed
    exact revealed

end TreeCheck
