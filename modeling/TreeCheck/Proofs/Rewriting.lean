import Mathlib.Logic.Relation
import TreeCheck.Proofs.Alike
import TreeCheck.Proofs.Script

/-!
# Changing a tree in one place

A rule on lists of children says how the children of a node with a given label may be replaced. A
rewriting applies it at one node, anywhere in a tree. The rule is harmless when the node it is
applied to is walked as before. Then so is the whole tree, since the nodes above only ask how the
changed node is walked and what its label is, and a program is checked as before however often the
rule has been applied.
-/

set_option autoImplicit false

namespace TreeCheck

/-- A rule applied to the children of one node of a tree. -/
inductive Node.Rewrites (rule : Label → List Node → List Node → Prop) : Node → Node → Prop
  | here {label : Label} {children others : List Node} (applied : rule label children others) :
      Rewrites rule ⟨label, children⟩ ⟨label, others⟩
  | inside {label : Label} {before after : List Node} {child other : Node}
      (rewritten : Rewrites rule child other) :
      Rewrites rule ⟨label, before ++ child :: after⟩ ⟨label, before ++ other :: after⟩

/-! ## Lists that differ in one place -/

section

variable {before : List Node} {child : Node} (after : List Node)

private theorem getElem?_of_ne_length {index : Nat} (elsewhere : index ≠ before.length)
    (other : Node) :
    (before ++ child :: after)[index]? = (before ++ other :: after)[index]? := by
  rcases Nat.lt_or_gt_of_ne elsewhere with early | late
  · simp [List.getElem?_append_left early]
  · obtain ⟨offset, shift⟩ : ∃ offset, index - before.length = offset + 1 :=
      ⟨index - before.length - 1, by omega⟩
    simp [List.getElem?_append_right (Nat.le_of_lt late), shift]

theorem forall₂_of_place {relation : Node → Node → Prop} {other : Node}
    (same : ∀ node, relation node node) (changed : relation child other) (before : List Node) :
    List.Forall₂ relation (before ++ child :: after) (before ++ other :: after) := by
  induction before with
  | nil => exact .cons changed (List.forall₂_same.mpr fun node _ => same node)
  | cons first rest ih => exact .cons (same first) ih

end

namespace Check

theorem alike_visit_self (node : Node) : (visit node).Alike (visit node) :=
  (localTo_visit (List.Subset.refl node.names)).alike

theorem alike_read_self (position : Position) (node : Node) :
    (read position node).Alike (read position node) :=
  (localTo_read (localTo_visit (List.Subset.refl node.names)) (List.Subset.refl _) position).alike

/-! ## What a node asks of a child -/

/-- Below a node with this label, the child at `index` and the other are walked alike. Either the
node has both walked and does not look at them, or it may read them itself, which takes nothing but
their labels and the label of a case. -/
structure Interchangeable (label : Label) (index : Nat) (child other : Node) : Prop where
  visited : (visit child).Alike (visit other)
  shown : (label.leadsTo index child.label = true ∧ label.leadsTo index other.label = true) ∨
    (child.label = other.label ∧ (child.label = .caseStmt →
      child.children.head?.map Node.label = other.children.head?.map Node.label))

namespace Interchangeable

variable {label : Label} {index : Nat} {before after : List Node} {child other : Node}

private theorem label_eq (interchangeable : Interchangeable label index child other)
    (unread : label.leadsTo index child.label = false) : child.label = other.label := by
  rcases interchangeable.shown with ⟨walked, -⟩ | ⟨same, -⟩
  · simp [unread] at walked
  · exact same

private theorem getElem?_label {place : Nat}
    (interchangeable : Interchangeable label before.length child other)
    (unread : place = before.length → label.leadsTo before.length child.label = false) :
    (before ++ child :: after)[place]?.map Node.label =
      (before ++ other :: after)[place]?.map Node.label := by
  by_cases here : place = before.length
  · simp [here, interchangeable.label_eq (unread here)]
  · rw [getElem?_of_ne_length after here other]

private theorem map_label (interchangeable : Interchangeable label before.length child other)
    (after : List Node) (unread : label.leadsTo before.length child.label = false) :
    (before ++ child :: after).map Node.label = (before ++ other :: after).map Node.label := by
  simp [interchangeable.label_eq unread]

private theorem walks_of_leadsTo {gathering : Gathering} {arity : Nat} {below : Label}
    (planned : label.gathering? arity = some gathering)
    (walked : label.leadsTo index below = true) : gathering.position.walks below = true := by
  cases label with
  | genValue =>
      cases planned
      cases below with
      | identifier name => cases walked
      | _ => rfl
  | boolExpr tokens | notExpr tokens | unaExpr tokens => cases tokens <;> cases planned <;> rfl
  | addExpr | mulExpr =>
      cases planned
      split <;> rfl
  | _ => cases planned <;> rfl

theorem read {gathering : Gathering} {arity : Nat}
    (interchangeable : Interchangeable label index child other)
    (planned : label.gathering? arity = some gathering) :
    (Check.read gathering.position child).Alike (Check.read gathering.position other) := by
  rcases interchangeable.shown with ⟨walked, walkedOther⟩ | ⟨same, -⟩
  · rw [read_of_walks (walks_of_leadsTo planned walked),
      read_of_walks (walks_of_leadsTo planned walkedOther)]
    exact interchangeable.visited
  · exact interchangeable.visited.read same gathering.noCase

theorem gather {gathering : Gathering}
    (interchangeable : Interchangeable label before.length child other)
    (planned : label.gathering? (before ++ child :: after).length = some gathering) :
    (gather gathering label.kind (before ++ child :: after)).Alike
      (Check.gather gathering label.kind (before ++ other :: after)) := by
  apply alike_gather
  · cases before <;> rfl
  · have all : List.Forall₂ (fun node otherNode =>
        (Check.read gathering.position node).Alike (Check.read gathering.position otherNode))
        (before ++ child :: after) (before ++ other :: after) :=
      forall₂_of_place after (alike_read_self _) (interchangeable.read planned) before
    unfold Gathering.operands
    split
    · exact List.forall₂_take 1 all
    · exact all

theorem assignStmt (interchangeable : Interchangeable .assignStmt before.length child other) :
    (visit ⟨.assignStmt, before ++ child :: after⟩).Alike
      (visit ⟨.assignStmt, before ++ other :: after⟩) := by
  have target : (before ++ child :: after)[0]?.map Node.label =
      (before ++ other :: after)[0]?.map Node.label := by
    apply interchangeable.getElem?_label
    intro here
    simp [← here, Label.leadsTo]
  have value (name : String) (found : Option Ty) :
      (assignValue (before ++ child :: after) name found).Alike
        (assignValue (before ++ other :: after) name found) := by
    unfold assignValue
    by_cases here : 1 = before.length
    · simp only [here, List.getElem?_append_right, Nat.le_refl, Nat.sub_self,
        List.getElem?_cons_zero]
      exact interchangeable.visited.bind fun type => alike_require _ _
    · rw [getElem?_of_ne_length after here other]
      cases (before ++ other :: after)[1]? with
      | none => exact alike_fail _
      | some value => exact (alike_visit_self value).bind fun type => alike_require _ _
  rw [visit_assignStmt, visit_assignStmt, identifierAt_of_label target]
  exact (alike_emit _ _).bind fun _ => (alike_identifierAt _ _ _).bind fun name =>
    (alike_lookup name).bind fun found => value name found

private theorem readArm (interchangeable : Interchangeable .switchStmt index child other)
    (subject : Ty) :
    (Check.read (.arm subject) child).Alike (Check.read (.arm subject) other) := by
  have walks {node : Node} (other : node.label ≠ .caseStmt) :
      (Position.arm subject).walks node.label = true := by
    cases known : (Position.arm subject).walks node.label with
    | true => rfl
    | false => simp_all [Position.walks_eq_false_iff]
  by_cases isCase : child.label = .caseStmt
  · have unread : Label.switchStmt.leadsTo index child.label = false := by
      simp [Label.leadsTo, isCase, Label.kind]
    have same := interchangeable.label_eq unread
    rcases interchangeable.shown with ⟨walked, -⟩ | ⟨-, heads⟩
    · simp [unread] at walked
    · rcases child with ⟨label, below⟩
      rcases other with ⟨otherLabel, otherBelow⟩
      obtain rfl : label = .caseStmt := isCase
      obtain rfl : otherLabel = .caseStmt := same.symm
      have labels : below.head?.map Node.label = otherBelow.head?.map Node.label := heads rfl
      have judged := alike_caseLabel subject below
      nth_rw 2 [caseLabel_of_label labels] at judged
      exact judged
  · have otherCase : other.label ≠ .caseStmt := by
      rcases interchangeable.shown with ⟨-, walked⟩ | ⟨same, -⟩
      · intro isCase
        simp [Label.leadsTo, isCase, Label.kind] at walked
      · rwa [← same]
    rw [read_of_walks (walks isCase), read_of_walks (walks otherCase)]
    exact interchangeable.visited

theorem switchStmt (interchangeable : Interchangeable .switchStmt before.length child other) :
    (visit ⟨.switchStmt, before ++ child :: after⟩).Alike
      (visit ⟨.switchStmt, before ++ other :: after⟩) := by
  have subject : (before ++ child :: after)[0]?.map Node.label =
      (before ++ other :: after)[0]?.map Node.label := by
    apply interchangeable.getElem?_label
    intro here
    simp [← here, Label.leadsTo]
  have arms (type : Ty) : List.Forall₂
      (fun arm otherArm => (Check.read (.arm type) arm).Alike (Check.read (.arm type) otherArm))
      (before ++ child :: after).tail (before ++ other :: after).tail := by
    cases before with
    | nil => exact List.forall₂_same.mpr fun node _ => alike_read_self _ node
    | cons first rest =>
        exact forall₂_of_place after (alike_read_self _) (interchangeable.readArm type) rest
  rw [visit_switchStmt, visit_switchStmt, identifierAt_of_label subject]
  refine (alike_emit _ _).bind fun _ => (alike_identifierAt _ _ _).bind fun name =>
    (alike_lookup name).bind fun found => ?_
  unfold switchArms
  cases found.filter Ty.isSwitchable with
  | none => exact alike_fail _
  | some type => exact (alike_visitEach (arms type) _ _).bind fun _ => alike_pure _

/-- A node is walked as before when a child of it is replaced by one that is read alike. -/
theorem visit (interchangeable : Interchangeable label before.length child other) :
    (Check.visit ⟨label, before ++ child :: after⟩).Alike
      (Check.visit ⟨label, before ++ other :: after⟩) := by
  cases planned : label.gathering? (before ++ child :: after).length with
  | some gathering =>
      have replanned : label.gathering? (before ++ other :: after).length = some gathering := by
        rw [← planned]
        simp
      rw [visit_of_gathering planned, visit_of_gathering replanned]
      exact interchangeable.gather planned
  | none =>
      cases label with
      | program | caseStmt =>
          rw [Check.visit, Check.visit]
          exact (alike_emit _ _).bind fun _ => alike_fail _
      | declaration typeName =>
          have labels := interchangeable.map_label after rfl
          have same : declareVariable typeName (before ++ child :: after) =
              declareVariable typeName (before ++ other :: after) := by
            apply declareVariable_of_label
            · simp
            · intro index _
              simp only [← List.getElem?_map, labels]
          rw [Check.visit, Check.visit, same]
          exact (alike_emit _ _).bind fun _ =>
            (alike_declareVariable _ _).bind fun _ => alike_pure _
      | enumStmt =>
          have labels := interchangeable.map_label after rfl
          rw [Check.visit, Check.visit, declareEnum_of_label labels]
          exact (alike_emit _ _).bind fun _ => (alike_declareEnum _).bind fun _ => alike_pure _
      | assignStmt => exact interchangeable.assignStmt
      | switchStmt => exact interchangeable.switchStmt
      | boolValue _ | intValue _ | identifier _ =>
          rw [Check.visit, Check.visit]
          exact (alike_emit _ _).bind fun _ => alike_pure _
      | boolExpr tokens | notExpr tokens | unaExpr tokens => cases tokens <;> cases planned
      | _ => cases planned

end Interchangeable

/-! ## Harmless rules -/

/-- Nodes to which the rule is applied are walked as before, and so are the items of a program. The
children of a case are left alone: a switch reads the first of them. -/
structure Harmless (rule : Label → List Node → List Node → Prop) : Prop where
  visit : ∀ {label : Label} {children others : List Node}, rule label children others →
    (visit ⟨label, children⟩).Alike (visit ⟨label, others⟩)
  items : ∀ {children others : List Node}, rule .program children others →
    (items children).Alike (items others)
  noCase : ∀ {children others : List Node}, ¬ rule .caseStmt children others

end Check

namespace Node.Rewrites

variable {rule : Label → List Node → List Node → Prop} {node other : Node}

private theorem label_eq (rewritten : Rewrites rule node other) : node.label = other.label := by
  cases rewritten <;> rfl

private theorem caseHead_eq
    (noCase : ∀ {children others : List Node}, ¬ rule .caseStmt children others)
    (rewritten : Rewrites rule node other) (isCase : node.label = .caseStmt) :
    node.children.head?.map Node.label = other.children.head?.map Node.label := by
  cases rewritten with
  | here applied =>
      obtain rfl := isCase
      exact absurd applied noCase
  | @inside label before after child other rewritten =>
      cases before with
      | nil => simp [rewritten.label_eq]
      | cons first rest => rfl

theorem visit (harmless : Check.Harmless rule) (rewritten : Rewrites rule node other) :
    (Check.visit node).Alike (Check.visit other) := by
  induction rewritten with
  | here applied => exact harmless.visit applied
  | inside rewritten ih =>
      exact Check.Interchangeable.visit
        ⟨ih, .inr ⟨rewritten.label_eq, rewritten.caseHead_eq harmless.noCase⟩⟩

end Node.Rewrites

theorem Run.EndsLike.refl (run : Run) : run.EndsLike run :=
  ⟨rfl, rfl⟩

namespace Session

variable {rule : Label → List Node → List Node → Prop}

private theorem check_of_rewrites (session : Session) (harmless : Check.Harmless rule)
    {program other : Node} (rewritten : Node.Rewrites rule program other) :
    (session.check program).EndsLike (session.check other) := by
  by_cases root : program.label = .program
  · cases rewritten with
    | here applied =>
        obtain rfl := root
        exact session.check_endsLike (harmless.items applied)
    | inside rewritten =>
        obtain rfl := root
        apply session.check_endsLike
        exact Check.alike_items
          (forall₂_of_place _ Check.alike_visit_self (rewritten.visit harmless) _)
  · have otherRoot : other.label ≠ .program := by rwa [← rewritten.label_eq]
    have sameKind : other.kind = program.kind := by rw [Node.kind, Node.kind, rewritten.label_eq]
    rw [check_of_label_ne root, check_of_label_ne otherRoot, sameKind]
    exact .refl _

/-- However often a harmless rule is applied, a program is checked as before. -/
theorem check_of_rewritten (session : Session) (harmless : Check.Harmless rule)
    {program other : Node}
    (rewritten : Relation.ReflTransGen (Node.Rewrites rule) program other) :
    (session.check program).EndsLike (session.check other) := by
  induction rewritten with
  | refl => exact .refl _
  | tail _ last ih => exact ih.trans (session.check_of_rewrites harmless last)

end Session

end TreeCheck
