import TreeCheck.Proofs.Alike

/-!
# Parts that no rule reads

What a rule can see of a tree depends on the node and on where it stands: a program below the root
and a case outside a switch are refused unread, a case of a switch is judged by its label alone, and
declarations, assignments and negations stop before their last children. Pruning deletes all that
cannot be seen, and a program is checked as before.
-/

set_option autoImplicit false

namespace TreeCheck

/-- Where a node stands, as far as it decides what can be seen of it. -/
inductive Place
  | root
  | arm
  | inner
deriving DecidableEq, Repr

namespace Label

/-- Where the children of a node stand. -/
def below : Label → Place
  | .switchStmt => .arm
  | _ => .inner

/-- The children that can be seen. -/
def kept (place : Place) (label : Label) (children : List Node) : List Node :=
  match label with
  | .program => if place = .root then children else []
  | .caseStmt => if place = .arm then children.take 1 else []
  | .declaration _ | .assignStmt => children.take 2
  | .notExpr (_ :: _) => children.take 1
  | .boolValue _ | .intValue _ | .identifier _ => []
  | _ => children

/-- The children of a node, if it is a case of a switch with another body. -/
def rebodied (change : List Node → List Node) (place : Place) (label : Label)
    (children : List Node) : List Node :=
  match place, label, children with
  | .arm, .caseStmt, first :: body => first :: change body
  | _, _, _ => children

end Label

namespace Node

mutual

/-- Deletes what cannot be seen, at every depth. -/
def prune (place : Place) : Node → Node
  | ⟨label, children⟩ => ⟨label, label.kept place (pruneAll label.below children)⟩

def pruneAll (place : Place) : List Node → List Node
  | [] => []
  | node :: rest => node.prune place :: pruneAll place rest

end

mutual

/-- Changes the body of every case of a switch, at every depth. -/
def rebody (change : List Node → List Node) (place : Place) : Node → Node
  | ⟨label, children⟩ =>
    ⟨label, label.rebodied change place (rebodyAll change label.below children)⟩

def rebodyAll (change : List Node → List Node) (place : Place) : List Node → List Node
  | [] => []
  | node :: rest => node.rebody change place :: rebodyAll change place rest

end

private theorem pruneAll_eq (place : Place) (nodes : List Node) :
    pruneAll place nodes = nodes.map (prune place) := by
  induction nodes with
  | nil => rw [pruneAll, List.map_nil]
  | cons node rest ih => rw [pruneAll, ih, List.map_cons]

private theorem prune_mk (place : Place) (label : Label) (children : List Node) :
    (Node.mk label children).prune place =
      ⟨label, label.kept place (children.map (prune label.below))⟩ := by
  rw [prune, pruneAll_eq]

private theorem rebodyAll_eq (change : List Node → List Node) (place : Place) (nodes : List Node) :
    rebodyAll change place nodes = nodes.map (rebody change place) := by
  induction nodes with
  | nil => rw [rebodyAll, List.map_nil]
  | cons node rest ih => rw [rebodyAll, ih, List.map_cons]

private theorem rebody_mk (change : List Node → List Node) (place : Place) (label : Label)
    (children : List Node) :
    (Node.mk label children).rebody change place =
      ⟨label, label.rebodied change place (children.map (rebody change label.below))⟩ := by
  rw [rebody, rebodyAll_eq]

@[simp] theorem label_prune (place : Place) (node : Node) :
    (node.prune place).label = node.label := by
  rcases node with ⟨label, children⟩
  rw [prune_mk, label_mk, label_mk]

private theorem map_label_prune (place : Place) (nodes : List Node) :
    (nodes.map (prune place)).map Node.label = nodes.map Node.label := by
  simp

end Node

theorem Label.kept_rebodied {place : Place} {label : Label} {children others : List Node}
    {change : List Node → List Node}
    (same : others.map (Node.prune label.below) = children.map (Node.prune label.below)) :
    label.kept place ((label.rebodied change place others).map (Node.prune label.below)) =
      label.kept place (children.map (Node.prune label.below)) := by
  rw [← same]
  unfold rebodied
  split
  · simp [kept]
  · rfl

/-- The body of a case is deleted, so it makes no difference to what is left. -/
theorem Node.prune_rebody (change : List Node → List Node) (place : Place) (node : Node) :
    (node.rebody change place).prune place = node.prune place := by
  induction node using childrenInduction generalizing place with
  | step label children ih =>
      have same : (children.map (rebody change label.below)).map (prune label.below) =
          children.map (prune label.below) := by
        rw [List.map_map]
        exact List.map_congr_left fun child member => ih child member label.below
      rw [rebody_mk, prune_mk, prune_mk, Label.kept_rebodied same]

example :
    (Node.program [.switch "level" [.case (.intLiteral 1) [.declaration "num" "level"]]]).prune
      .root = .program [.switch "level" [.case (.intLiteral 1) []]] := rfl

/-! ## What rules with a plan read -/

namespace Label

variable {label : Label} {gathering : Gathering} {arity : Nat}

private theorem operands_kept (planned : label.gathering? arity = some gathering) (place : Place)
    (children : List Node) :
    gathering.operands (label.kept place children) = gathering.operands children := by
  cases label with
  | notExpr tokens =>
      cases tokens with
      | nil => rfl
      | cons token tokens =>
          cases planned
          exact List.take_take.trans (by simp [Gathering.operands, Gathering.negation])
  | boolExpr tokens | unaExpr tokens => rfl
  | program | declaration typeName | assignStmt | caseStmt | boolValue value | intValue value
  | identifier name => cases planned
  | _ => rfl

private theorem isEmpty_kept (planned : label.gathering? arity = some gathering) (place : Place)
    (children : List Node) : (label.kept place children).isEmpty = children.isEmpty := by
  cases label with
  | notExpr tokens => cases tokens <;> cases children <;> rfl
  | program | declaration typeName | assignStmt | caseStmt | boolValue value | intValue value
  | identifier name => cases planned
  | _ => rfl

private theorem gathering?_kept (planned : label.gathering? arity = some gathering) (place : Place)
    (children : List Node) :
    label.gathering? (label.kept place children).length = label.gathering? children.length := by
  cases label with
  | notExpr tokens => cases tokens <;> rfl
  | program | declaration typeName | assignStmt | caseStmt | boolValue value | intValue value
  | identifier name => cases planned
  | _ => rfl

end Label

/-! ## The walk -/

namespace Check

variable {children : List Node}

/-- The walk of each child ends like the walk of what is left of it. -/
def PrunesAlike (children : List Node) : Prop :=
  ∀ child ∈ children, ∀ place, (visit child).Alike (visit (child.prune place))

theorem PrunesAlike.gather {gathering : Gathering} {label : Label} (alike : PrunesAlike children)
    (planned : label.gathering? children.length = some gathering) (place : Place) :
    (gather gathering label.kind children).Alike
      (gather gathering label.kind (label.kept place (children.map (Node.prune label.below)))) := by
  refine alike_gather ?_ ?_ _
  · rw [Label.isEmpty_kept planned, List.isEmpty_map]
  · rw [Label.operands_kept planned, Gathering.operands_map, List.forall₂_map_right_iff,
      List.forall₂_same]
    intro child member
    have visited := alike child (gathering.operands_subset children member) label.below
    exact visited.read (Node.label_prune _ child).symm gathering.noCase

theorem PrunesAlike.assignValue (alike : PrunesAlike children) (place : Place) (name : String)
    (target : Option Ty) :
    (assignValue children name target).Alike
      (assignValue ((children.map (Node.prune place)).take 2) name target) := by
  unfold Check.assignValue
  rw [List.getElem?_take_of_lt (by omega), List.getElem?_map]
  cases found : children[1]? with
  | none => exact alike_fail _
  | some value =>
      exact (alike value (List.mem_of_getElem? found) place).bind fun _ => alike_require _ _

private theorem label_of_seen {count index : Nat} {place : Place} (seen : index < count) :
    ((children.map (Node.prune place)).take count)[index]?.map Node.label =
      children[index]?.map Node.label := by
  rw [List.getElem?_take_of_lt seen, List.getElem?_map]
  cases children[index]? <;> simp

/-- Also a case is read alike, since its label is kept. -/
theorem alike_read_arm {child : Node} (visited : (visit child).Alike (visit (child.prune .arm)))
    (subject : Ty) :
    (read (.arm subject) child).Alike (read (.arm subject) (child.prune .arm)) := by
  rcases child with ⟨label, below⟩
  cases walks : (Position.arm subject).walks label with
  | true =>
      rw [read_of_walks walks, read_of_walks (by rw [Node.label_prune]; exact walks)]
      exact visited
  | false =>
      obtain rfl : label = .caseStmt := by simpa using Position.walks_eq_false_iff.mp walks
      have labels : below.head?.map Node.label =
          ((below.map (Node.prune .inner)).take 1).head?.map Node.label := by
        cases below <;> simp
      rw [Node.prune_mk]
      change (caseLabel subject below).Alike
        (caseLabel subject ((below.map (Node.prune .inner)).take 1))
      rw [← caseLabel_of_label labels]
      exact alike_caseLabel subject below

theorem PrunesAlike.switchArms (alike : PrunesAlike children) (name : String)
    (subject : Option Ty) :
    (switchArms children name subject).Alike
      (switchArms (children.map (Node.prune .arm)) name subject) := by
  unfold Check.switchArms
  split
  · exact alike_fail _
  · rename_i type _
    rw [← List.map_tail]
    refine (alike_visitEach ?_ _ _).bind fun _ => alike_pure _
    rw [List.forall₂_map_right_iff, List.forall₂_same]
    intro child member
    exact alike_read_arm (alike child (List.mem_of_mem_tail member) .arm) type

private theorem declareVariable_pruned (typeName : Option String) (children : List Node) :
    declareVariable typeName ((children.map (Node.prune .inner)).take 2) =
      declareVariable typeName children := by
  refine declareVariable_of_label ?_ fun index early => label_of_seen early
  rw [List.length_take, List.length_map]
  omega

theorem PrunesAlike.assignStmt (alike : PrunesAlike children) :
    (visit ⟨.assignStmt, children⟩).Alike
      (visit ⟨.assignStmt, (children.map (Node.prune .inner)).take 2⟩) := by
  rw [visit_assignStmt, visit_assignStmt, identifierAt_of_label (label_of_seen (by omega))]
  refine (alike_emit _ _).bind fun _ => (alike_identifierAt _ _ _).bind fun name => ?_
  exact (alike_lookup name).bind fun target => alike.assignValue .inner name target

theorem PrunesAlike.switchStmt (alike : PrunesAlike children) :
    (visit ⟨.switchStmt, children⟩).Alike
      (visit ⟨.switchStmt, children.map (Node.prune .arm)⟩) := by
  have seen : (children.map (Node.prune .arm))[0]?.map Node.label =
      children[0]?.map Node.label := by
    cases children <;> simp
  rw [visit_switchStmt, visit_switchStmt, identifierAt_of_label seen]
  refine (alike_emit _ _).bind fun _ => (alike_identifierAt _ _ _).bind fun name => ?_
  exact (alike_lookup name).bind fun subject => alike.switchArms name subject

private theorem prunesAlike_of_children (label : Label) (children : List Node)
    (alike : PrunesAlike children) (place : Place) :
    (visit ⟨label, children⟩).Alike (visit ((Node.mk label children).prune place)) := by
  rw [Node.prune_mk]
  cases planned : label.gathering? children.length with
  | some gathering =>
      have replanned :
          label.gathering? (label.kept place (children.map (Node.prune label.below))).length =
            some gathering := by
        rw [Label.gathering?_kept planned, List.length_map, planned]
      rw [visit_of_gathering planned, visit_of_gathering replanned]
      exact alike.gather planned place
  | none =>
      cases label with
      | program | caseStmt =>
          rw [visit, visit]
          exact (alike_emit _ _).bind fun _ => alike_fail _
      | declaration typeName =>
          have declared := alike_declareVariable typeName children
          nth_rw 2 [← declareVariable_pruned] at declared
          rw [visit, visit]
          exact (alike_emit _ _).bind fun _ => declared.bind fun _ => alike_pure _
      | enumStmt =>
          have declared := alike_declareEnum children
          nth_rw 2 [← declareEnum_of_label (Node.map_label_prune .inner children)] at declared
          rw [visit, visit]
          exact (alike_emit _ _).bind fun _ => declared.bind fun _ => alike_pure _
      | assignStmt => exact alike.assignStmt
      | switchStmt => exact alike.switchStmt
      | boolValue _ | intValue _ | identifier _ =>
          rw [visit, visit]
          exact (alike_emit _ _).bind fun _ => alike_pure _
      | boolExpr tokens | notExpr tokens | unaExpr tokens => cases tokens <;> cases planned
      | _ => cases planned

private theorem alike_visit_prune (node : Node) (place : Place) :
    (visit node).Alike (visit (node.prune place)) := by
  induction node using Node.childrenInduction generalizing place with
  | step label children ih => exact prunesAlike_of_children label children ih place

end Check

theorem Session.check_prune (session : Session) (program : Node) :
    (session.check (program.prune .root)).EndsLike (session.check program) := by
  rcases program with ⟨label, nodes⟩
  by_cases root : label = .program
  · subst root
    rw [Node.prune_mk]
    refine (session.check_endsLike (Check.alike_items ?_)).symm
    change List.Forall₂ _ nodes (nodes.map (Node.prune .inner))
    rw [List.forall₂_map_right_iff, List.forall₂_same]
    exact fun node _ => Check.alike_visit_prune node .inner
  · have other : (Node.mk label nodes).label ≠ .program := root
    have pruned : ((Node.mk label nodes).prune .root).label ≠ .program := by
      rwa [Node.label_prune]
    rw [check_of_label_ne pruned, check_of_label_ne other, Node.prune_mk]
    exact ⟨rfl, rfl⟩

/-- A program is checked like what is left of it once all that cannot be seen is deleted: with the
same outcome, the same names and the same counters. So it does not matter what the bodies of cases
contain, and programs that differ only in such parts are checked alike. -/
theorem check_endsLike_of_pruned (session : Session) (program : Node) :
    (session.check (program.prune .root)).EndsLike (session.check program) ∧
    (∀ change : List Node → List Node,
      (session.check (program.rebody change .root)).EndsLike (session.check program)) ∧
    ∀ other : Node, other.prune .root = program.prune .root →
      (session.check other).EndsLike (session.check program) := by
  have seen : ∀ other : Node, other.prune .root = program.prune .root →
      (session.check other).EndsLike (session.check program) := by
    intro other same
    have otherPruned := session.check_prune other
    rw [same] at otherPruned
    exact otherPruned.symm.trans (session.check_prune program)
  refine ⟨session.check_prune program, fun change => ?_, seen⟩
  exact seen (program.rebody change .root) (Node.prune_rebody change .root program)

end TreeCheck
