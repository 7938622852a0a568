import TreeCheck.Proofs.Gathering

/-!
# Properties that rules inherit

A property of steps is inherited when it passes from the parts of a rule to the rule. The walk of
every tree then has the property as soon as declarations have it, which are the only rules that
touch the table.
-/

set_option autoImplicit false

namespace TreeCheck

theorem Label.enumValues_of_gathering {label : Label} {arity : Nat} {gathering : Gathering}
    (planned : label.gathering? arity = some gathering) :
    gathering.before.enumValues = 0 ∧ ∀ types, (gathering.after types).enumValues = 0 := by
  cases label with
  | addExpr | mulExpr =>
      cases planned
      split <;> exact ⟨rfl, fun _ => rfl⟩
  | boolExpr tokens | notExpr tokens | unaExpr tokens =>
      cases tokens <;> cases planned <;> exact ⟨rfl, fun _ => rfl⟩
  | _ => cases planned <;> exact ⟨rfl, fun _ => rfl⟩

namespace Check

/-- The step never succeeds. -/
def Refuses {α : Type} (step : Check α) : Prop :=
  ∀ walk value after, step walk ≠ (.ok value, after)

theorem refuses_fail {α : Type} (fault : Fault) : (fail fault : Check α).Refuses := by
  intro walk value after done
  cases done

private theorem refuses_bind {α β : Type} (step : Check α) {next : α → Check β}
    (refused : ∀ value, (next value).Refuses) : (step >>= next).Refuses := by
  intro walk value after done
  obtain ⟨result, middle, -, rest⟩ := bind_eq_ok_iff.mp done
  exact refused result middle value after rest

private theorem refuses_assignValue (children : List Node) (name : String) :
    (assignValue children name none).Refuses := by
  rw [assignValue]
  cases children[1]? with
  | none => exact refuses_fail _
  | some value => exact refuses_bind (visit value) fun _ => refuses_fail _

/-- The property passes from the parts of a rule to the rule. A name that is not found may be found
in a larger table, so what is done without it counts only as long as nothing comes of it. -/
structure Inherited (Holds : ∀ {α : Type}, Check α → Prop) : Prop where
  value : ∀ {α : Type} (value : α), Holds (pure value : Check α)
  stop : ∀ {α : Type} (fault : Fault), Holds (fail fault : Check α)
  bind : ∀ {α β : Type} {step : Check α} {next : α → Check β},
    Holds step → (∀ value, Holds (next value)) → Holds (step >>= next)
  visited : ∀ (kind : Kind) (children : Nat), Holds (emit (.visit kind children))
  counted : ∀ counts : Metrics, counts.vars = 0 → counts.enumValues = 0 →
    Holds (count (· + counts))
  found : ∀ {α : Type} (name : String) {next : Option Ty → Check α}, Holds (next none) →
    (next none).Refuses → (∀ type, Holds (next (some type))) → Holds (lookup name >>= next)

namespace Inherited

variable {Holds : ∀ {α : Type}, Check α → Prop} (inherited : Inherited Holds)

include inherited

theorem identifier (parent : Kind) (index : Nat) (child : Node) :
    Holds (Check.identifier parent index child) := by
  rw [Check.identifier]
  cases child.identifier? with
  | none => exact inherited.stop _
  | some name => exact inherited.value name

theorem identifierAt (parent : Kind) (children : List Node) (index : Nat) :
    Holds (Check.identifierAt parent children index) := by
  rw [Check.identifierAt]
  cases children[index]? with
  | none => exact inherited.stop _
  | some child => exact inherited.identifier parent index child

theorem require {α : Type} {condition : Prop} [Decidable condition] (value : α)
    (broken : Violation) :
    Holds (if condition then pure value else reject broken : Check α) := by
  split
  · exact inherited.value value
  · exact inherited.stop _

theorem resolve (name : String) : Holds (Check.resolve name) :=
  inherited.found name (inherited.stop _) (refuses_fail _) inherited.value

theorem caseLabel (subject : Ty) (children : List Node) :
    Holds (Check.caseLabel subject children) := by
  cases children with
  | nil => exact inherited.stop _
  | cons label body =>
      rcases label with ⟨label, below⟩
      cases label with
      | identifier name =>
          apply inherited.found name
          · exact inherited.stop _
          · exact refuses_fail _
          · exact fun type => inherited.require _ _
      | intValue value => exact inherited.require _ _
      | _ => exact inherited.stop _

theorem read {child : Node} (visited : Holds (visit child)) (position : Position) :
    Holds (Check.read position child) := by
  revert visited
  refine read_cases position child (fun walks visited => ?_) (fun name below _ => ?_)
    fun subject below _ => ?_
  · rw [read_of_walks walks]
    exact visited
  · exact inherited.resolve name
  · exact inherited.caseLabel subject below

theorem visitEach {children : List Node} (visited : ∀ child ∈ children, Holds (visit child))
    (position : Position) (admitted : Admission) (earlier : List Ty) :
    Holds (Check.visitEach position admitted earlier children) := by
  induction children generalizing earlier with
  | nil =>
      rw [visitEach_nil]
      exact inherited.value earlier
  | cons child rest ih =>
      obtain ⟨first, others⟩ := List.forall_mem_cons.mp visited
      rw [visitEach_cons]
      apply inherited.bind (inherited.read first position)
      intro type
      split
      · exact ih others (earlier ++ [type])
      · exact inherited.stop _

theorem gather {children : List Node} (visited : ∀ child ∈ children, Holds (visit child))
    {label : Label} {gathering : Gathering}
    (planned : label.gathering? children.length = some gathering) :
    Holds (Check.gather gathering label.kind children) := by
  obtain ⟨before, after⟩ := Label.enumValues_of_gathering planned
  have judged (types : List Ty) : Holds (judge gathering types) := by
    rw [judge]
    apply inherited.bind (inherited.counted _ (gathering.after_vars types) (after types))
    intro _
    cases gathering.conclude types with
    | none => exact inherited.stop _
    | some type => exact inherited.value type
  rw [Check.gather]
  apply inherited.bind (inherited.visited _ _)
  intro _
  apply inherited.bind (inherited.counted _ gathering.before_vars before)
  intro _
  split
  · exact inherited.stop _
  · have operands := fun child member => visited child (gathering.operands_subset children member)
    exact inherited.bind (inherited.visitEach operands _ _ _) judged

theorem assignStmt {children : List Node} (visited : ∀ child ∈ children, Holds (visit child)) :
    Holds (visit ⟨.assignStmt, children⟩) := by
  have assigned (name : String) (target : Option Ty) :
      Holds (assignValue children name target) := by
    rw [assignValue]
    cases found : children[1]? with
    | none => exact inherited.stop _
    | some value =>
        exact inherited.bind (visited value (List.mem_of_getElem? found))
          fun _ => inherited.require _ _
  rw [visit_assignStmt]
  apply inherited.bind (inherited.visited _ _)
  intro _
  apply inherited.bind (inherited.identifierAt _ _ _)
  intro name
  exact inherited.found name (assigned name none) (refuses_assignValue children name)
    fun type => assigned name (some type)

theorem switchStmt {children : List Node} (visited : ∀ child ∈ children, Holds (visit child)) :
    Holds (visit ⟨.switchStmt, children⟩) := by
  rw [visit_switchStmt]
  apply inherited.bind (inherited.visited _ _)
  intro _
  apply inherited.bind (inherited.identifierAt _ _ _)
  intro name
  refine inherited.found name (inherited.stop _) (refuses_fail _) fun type => ?_
  rw [switchArms]
  split
  · exact inherited.stop _
  · have arms := fun child member => visited child (List.mem_of_mem_tail member)
    exact inherited.bind (inherited.visitEach arms _ _ _) fun _ => inherited.value _

private theorem visit_of_children
    (declaredVariable : ∀ typeName children, Holds (declareVariable typeName children))
    (declaredEnum : ∀ children, Holds (declareEnum children)) (label : Label) (children : List Node)
    (visited : ∀ child ∈ children, Holds (visit child)) : Holds (visit ⟨label, children⟩) := by
  cases planned : label.gathering? children.length with
  | some gathering =>
      rw [visit_of_gathering planned]
      exact inherited.gather visited planned
  | none =>
      cases label with
      | program | caseStmt =>
          rw [Check.visit]
          exact inherited.bind (inherited.visited _ _) fun _ => inherited.stop _
      | declaration typeName =>
          rw [Check.visit]
          exact inherited.bind (inherited.visited _ _) fun _ =>
            inherited.bind (declaredVariable typeName children) fun _ => inherited.value _
      | enumStmt =>
          rw [Check.visit]
          exact inherited.bind (inherited.visited _ _) fun _ =>
            inherited.bind (declaredEnum children) fun _ => inherited.value _
      | assignStmt => exact inherited.assignStmt visited
      | switchStmt => exact inherited.switchStmt visited
      | boolValue _ | intValue _ | identifier _ =>
          rw [Check.visit]
          exact inherited.bind (inherited.visited _ _) fun _ => inherited.value _
      | boolExpr tokens | notExpr tokens | unaExpr tokens => cases tokens <;> cases planned
      | _ => cases planned

/-- The walk of a tree inherits the property from declarations. -/
theorem visit (declaredVariable : ∀ typeName children, Holds (declareVariable typeName children))
    (declaredEnum : ∀ children, Holds (declareEnum children)) (node : Node) :
    Holds (Check.visit node) :=
  Node.childrenInduction (inherited.visit_of_children declaredVariable declaredEnum) node

end Inherited

end Check

end TreeCheck
