import TreeCheck.Proofs.Inherited

/-!
# Relations that a walk moves along

A step moves along a relation when the relation holds between the walk it starts from and the walk
it leaves, whether or not it succeeds. For a relation that allows reporting and counting, the walk
of a tree moves along it as soon as declarations do, since no other rule touches the table.
-/

set_option autoImplicit false

namespace TreeCheck

/-- The relation allows nothing to happen, one thing after another, reports, and counts of anything
but variables. -/
structure Walk.Permits (relation : Walk → Walk → Prop) : Prop where
  refl : ∀ walk, relation walk walk
  trans : ∀ {before middle after : Walk},
    relation before middle → relation middle after → relation before after
  emit : ∀ (event : Event) (walk : Walk), relation walk (Check.emit event walk).2
  count : ∀ counts : Metrics, counts.vars = 0 →
    ∀ walk, relation walk (Check.count (· + counts) walk).2

namespace Check

/-- The step moves along the relation. -/
def Along {α : Type} (relation : Walk → Walk → Prop) (step : Check α) : Prop :=
  ∀ walk : Walk, relation walk (step walk).2

variable {relation : Walk → Walk → Prop} (permits : Walk.Permits relation)

include permits

theorem along_pure {α : Type} (value : α) : (pure value : Check α).Along relation :=
  permits.refl

theorem along_fail {α : Type} (fault : Fault) : (fail fault : Check α).Along relation :=
  permits.refl

theorem along_lookup (name : String) : (lookup name).Along relation :=
  permits.refl

theorem along_current : current.Along relation :=
  permits.refl

theorem Along.bind {α β : Type} {step : Check α} {next : α → Check β}
    (moved : step.Along relation) (continued : ∀ value, (next value).Along relation) :
    (step >>= next).Along relation := by
  intro walk
  have first := moved walk
  rcases run : step walk with ⟨fault | value, reached⟩
  · rw [run] at first
    rw [bind_of_error next run]
    exact first
  · rw [run] at first
    rw [bind_of_ok next run]
    exact permits.trans first (continued value reached)

theorem along_require {α : Type} {condition : Prop} [Decidable condition] (value : α)
    (broken : Violation) :
    (if condition then pure value else reject broken : Check α).Along relation := by
  split
  · exact along_pure permits value
  · exact along_fail permits _

theorem inherited_along : Inherited (Along relation) where
  value := along_pure permits
  stop := along_fail permits
  bind := Along.bind permits
  visited _ _ := permits.emit _
  counted counts none _ := permits.count counts none
  found name _ absent _ present := by
    apply Along.bind permits (along_lookup permits name)
    intro found
    cases found with
    | none => exact absent
    | some type => exact present type

/-! ## Declarations -/

theorem along_declareVariable (declared : ∀ name type, (declare name type).Along relation)
    (typeName : Option String) (children : List Node) :
    (declareVariable typeName children).Along relation := by
  have named := (inherited_along permits).identifierAt .declaration children
  rw [declareVariable]
  split
  · refine Along.bind permits (named 0) fun enumType => Along.bind permits (named 1) fun name => ?_
    refine Along.bind permits (along_current permits) fun session => ?_
    dsimp only
    split
    · exact Along.bind permits (permits.emit _) fun _ => declared _ _
    · exact along_fail permits _
  · refine Along.bind permits (named 0) fun name => ?_
    refine Along.bind permits (along_current permits) fun session => ?_
    exact Along.bind permits (permits.emit _) fun _ => declared _ _

theorem along_declareValues (declared : ∀ name type, (declare name type).Along relation)
    (index : Nat) (children : List Node) : (declareValues index children).Along relation := by
  induction children generalizing index with
  | nil =>
      rw [declareValues]
      exact along_pure permits ()
  | cons child rest ih =>
      rw [declareValues]
      exact Along.bind permits ((inherited_along permits).identifier _ _ _) fun name =>
        Along.bind permits (declared name _) fun _ => ih (index + 1)

theorem along_declareEnum (declared : ∀ name type, (declare name type).Along relation)
    (children : List Node) : (declareEnum children).Along relation := by
  cases children with
  | nil => exact along_fail permits _
  | cons first values =>
      rw [declareEnum]
      refine Along.bind permits ((inherited_along permits).identifier _ _ _) fun typeName => ?_
      refine Along.bind permits (permits.count { enumValues := values.length } rfl) fun _ => ?_
      refine Along.bind permits (permits.emit _) fun _ => ?_
      exact Along.bind permits (declared _ _) fun _ =>
        along_declareValues permits declared 1 values

/-! ## The walk -/

theorem along_visitEach {children : List Node}
    (moved : ∀ child ∈ children, (visit child).Along relation) (position : Position)
    (admitted : Admission) (earlier : List Ty) :
    (visitEach position admitted earlier children).Along relation :=
  (inherited_along permits).visitEach moved position admitted earlier

theorem along_judge (gathering : Gathering) (types : List Ty) :
    (judge gathering types).Along relation := by
  refine Along.bind permits (permits.count _ (gathering.after_vars types)) fun _ => ?_
  split
  · exact along_pure permits _
  · exact along_fail permits _

/-- The walk of a tree moves along a relation as soon as declarations do. -/
theorem along_visit
    (declaredVariable : ∀ typeName children, (declareVariable typeName children).Along relation)
    (declaredEnum : ∀ children, (declareEnum children).Along relation) (node : Node) :
    (visit node).Along relation :=
  (inherited_along permits).visit declaredVariable declaredEnum node

end Check

end TreeCheck
