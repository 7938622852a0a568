import TreeCheck.Node.Build
import TreeCheck.Proofs.TypingConditions
import TreeCheck.Proofs.Gathering

/-!
# Which fault comes first

Rules that read several children differ in when they judge. Conditionals, loops and comparisons walk
all their children and then look at the types; sums, products and boolean chains look at the type of
a child before they walk the next one. In all of them the first fault met on the way is the one that
is reported, and the walk is left as that child has left it.
-/

set_option autoImplicit false

namespace TreeCheck

/-- The walk after the visit of a node has been logged. -/
def Walk.visiting (walk : Walk) (node : Node) : Walk :=
  { walk with log := walk.log ++ [.visit node.kind node.children.length] }

/-- The walk with something added to its counters. -/
def Walk.counting (walk : Walk) (counts : Metrics) : Walk :=
  { walk with session := { walk.session with metrics := walk.session.metrics + counts } }

theorem Walk.counting_zero (walk : Walk) : walk.counting 0 = walk := by
  rw [counting, add_zero]

def Ty.IsFirstKnown (types : List Ty) (type : Ty) : Prop :=
  ∃ before after, types = before ++ type :: after ∧ type ≠ .unknown ∧
    ∀ earlier ∈ before, earlier = .unknown

theorem Ty.isFirstKnown_iff {types : List Ty} {type : Ty} :
    IsFirstKnown types type ↔ type ≠ .unknown ∧ firstKnown types = type := by
  constructor
  · rintro ⟨before, after, rfl, known, unknown⟩
    rw [firstKnown_append_of_unknown unknown, firstKnown_cons_of_known known]
    exact ⟨known, rfl⟩
  · rintro ⟨known, first⟩
    induction types with
    | nil => exact absurd first.symm known
    | cons head types ih =>
        by_cases unknown : head = .unknown
        · subst unknown
          obtain ⟨before, after, split, -, others⟩ := ih first
          exact ⟨.unknown :: before, after, by rw [split, List.cons_append], known,
            List.forall_mem_cons.mpr ⟨rfl, others⟩⟩
        · rw [firstKnown_cons_of_known unknown] at first
          exact ⟨[], types, by rw [first, List.nil_append], known, by simp⟩

namespace Check

/-! ## Children in turn -/

/-- What may be held against a child of this type, after children of those types. -/
abbrev Objection := List Ty → Ty → Prop

/-- The nodes are walked from left to right, each from where the one before it has left off, and have
these types. -/
inductive Passes : Walk → List Node → List Ty → Walk → Prop
  | nil {walk : Walk} : Passes walk [] [] walk
  | cons {walk middle after : Walk} {node : Node} {rest : List Node} {type : Ty} {types : List Ty}
      (passed : visit node walk = (.ok type, middle)) (others : Passes middle rest types after) :
      Passes walk (node :: rest) (type :: types) after

def Undisputed (objection : Objection) (types : List Ty) : Prop :=
  ∀ before type after, types = before ++ type :: after → ¬ objection before type

/-- How a walk along nodes ends. Either all nodes pass, or one of them is the first that fails or is
objected to. Then the walk is left as this node has left it, and those after it are not walked. -/
inductive Course (objection : Objection) (start : Walk) :
    List Node → Except Fault (List Ty) → Walk → Prop
  | passed {nodes : List Node} {types : List Ty} {after : Walk}
      (passes : Passes start nodes types after) (undisputed : Undisputed objection types) :
      Course objection start nodes (.ok types) after
  | failed {before later : List Node} {node : Node} {types : List Ty} {middle after : Walk}
      {fault : Fault} (passes : Passes start before types middle)
      (undisputed : Undisputed objection types)
      (fails : visit node middle = (.error fault, after)) :
      Course objection start (before ++ node :: later) (.error fault) after
  | refused {before later : List Node} {node : Node} {types : List Ty} {type : Ty}
      {middle after : Walk} (passes : Passes start before types middle)
      (undisputed : Undisputed objection types) (passed : visit node middle = (.ok type, after))
      (objects : objection types type) :
      Course objection start (before ++ node :: later)
        (.error (.violation .invalidExpressionType)) after

theorem undisputed_nil (objection : Objection) : Undisputed objection [] := by
  intro before type after split
  simp at split

theorem undisputed_cons_iff {objection : Objection} {type : Ty} {types : List Ty} :
    Undisputed objection (type :: types) ↔
      ¬ objection [] type ∧ Undisputed (fun earlier => objection (type :: earlier)) types := by
  constructor
  · intro undisputed
    refine ⟨undisputed [] type types rfl, fun before other after split => ?_⟩
    exact undisputed (type :: before) other after (by rw [split, List.cons_append])
  · intro undisputed before other after split
    cases before with
    | nil =>
        cases split
        exact undisputed.1
    | cons first before =>
        cases split
        exact undisputed.2 before other after rfl

theorem Course.cons {objection : Objection} {start middle after : Walk} {node : Node}
    {rest : List Node} {type : Ty} {outcome : Except Fault (List Ty)}
    (passed : visit node start = (.ok type, middle)) (fits : ¬ objection [] type)
    (course : Course (fun earlier => objection (type :: earlier)) middle rest outcome after) :
    Course objection start (node :: rest) ((type :: ·) <$> outcome) after := by
  cases course with
  | passed passes undisputed =>
      exact .passed (.cons passed passes) (undisputed_cons_iff.mpr ⟨fits, undisputed⟩)
  | failed passes undisputed fails =>
      exact .failed (.cons passed passes) (undisputed_cons_iff.mpr ⟨fits, undisputed⟩) fails
  | refused passes undisputed passedToo objects =>
      exact .refused (.cons passed passes) (undisputed_cons_iff.mpr ⟨fits, undisputed⟩) passedToo
        objects

theorem Course.failed_first {objection : Objection} {start after : Walk} {node : Node}
    {fault : Fault} (fails : visit node start = (.error fault, after)) (rest : List Node) :
    Course objection start (node :: rest) (.error fault) after := by
  change Course objection start ([] ++ node :: rest) _ _
  exact .failed .nil (undisputed_nil objection) fails

theorem Course.refused_first {objection : Objection} {start after : Walk} {node : Node} {type : Ty}
    (passed : visit node start = (.ok type, after)) (objects : objection [] type)
    (rest : List Node) :
    Course objection start (node :: rest) (.error (.violation .invalidExpressionType)) after := by
  change Course objection start ([] ++ node :: rest) _ _
  exact .refused .nil (undisputed_nil objection) passed objects

/-! ## Reading children -/

/-- After the types in `earlier`, just those types are admitted that nothing is held against. -/
def Heeds (admitted : Admission) (earlier : List Ty) (objection : Objection) : Prop :=
  ∀ types type, admitted (earlier ++ types) type = true ↔ ¬ objection types type

section

variable {admitted : Admission} {earlier : List Ty} {objection : Objection} {type : Ty}

theorem Heeds.head (heeds : Heeds admitted earlier objection) :
    admitted earlier type = true ↔ ¬ objection [] type := by
  simpa using heeds [] type

theorem Heeds.tail (heeds : Heeds admitted earlier objection) (type : Ty) :
    Heeds admitted (earlier ++ [type]) fun types => objection (type :: types) := by
  intro types other
  simpa using heeds (type :: types) other

private theorem exists_course (heeds : Heeds admitted earlier objection) (start : Walk)
    (nodes : List Node) :
    ∃ outcome, Course objection start nodes outcome
        (visitEach .plain admitted earlier nodes start).2 ∧
      (visitEach .plain admitted earlier nodes start).1 = (earlier ++ ·) <$> outcome := by
  induction nodes generalizing objection earlier start with
  | nil =>
      rw [visitEach_nil]
      exact ⟨.ok [], .passed .nil (undisputed_nil objection), by simp⟩
  | cons node rest ih =>
      rw [visitEach_cons, read_of_walks rfl]
      rcases run : visit node start with ⟨fault | type, middle⟩
      · rw [bind_of_error _ run]
        exact ⟨.error fault, .failed_first run rest, rfl⟩
      · rw [bind_of_ok _ run]
        by_cases objects : objection [] type
        · have barred : ¬ admitted earlier type = true := fun accepted =>
            heeds.head.mp accepted objects
          rw [if_neg barred]
          exact ⟨_, .refused_first run objects rest, rfl⟩
        · rw [if_pos (heeds.head.mpr objects)]
          obtain ⟨outcome, course, same⟩ := ih (heeds.tail type) middle
          refine ⟨_, course.cons run objects, ?_⟩
          rw [same]
          cases outcome <;> simp

private theorem visitEach_of_passes (heeds : Heeds admitted earlier objection) {start middle : Walk}
    {nodes : List Node} {types : List Ty} (passes : Passes start nodes types middle)
    (undisputed : Undisputed objection types) (rest : List Node) :
    visitEach .plain admitted earlier (nodes ++ rest) start =
      visitEach .plain admitted (earlier ++ types) rest middle := by
  induction passes generalizing objection earlier with
  | nil => rw [List.nil_append, List.append_nil]
  | @cons walk middle after node others type types passed passes ih =>
      obtain ⟨fits, undisputed⟩ := undisputed_cons_iff.mp undisputed
      rw [List.cons_append, visitEach_cons, read_of_walks rfl, bind_of_ok _ passed,
        if_pos (heeds.head.mpr fits), ih (heeds.tail type) undisputed, List.append_assoc,
        List.singleton_append]

end

private theorem visitEach_of_course {admitted : Admission} {objection : Objection}
    (heeds : Heeds admitted [] objection) {start after : Walk} {nodes : List Node}
    {outcome : Except Fault (List Ty)} (course : Course objection start nodes outcome after) :
    visitEach .plain admitted [] nodes start = (outcome, after) := by
  cases course with
  | passed passes undisputed =>
      have reached := visitEach_of_passes heeds passes undisputed []
      rw [List.append_nil, visitEach_nil] at reached
      exact reached
  | failed passes undisputed fails =>
      rw [visitEach_of_passes heeds passes undisputed, visitEach_cons, read_of_walks rfl,
        bind_of_error _ fails]
  | refused passes undisputed passed objects =>
      rename_i types type middle
      have barred : ¬ admitted types type = true := fun accepted =>
        (heeds types type).mp accepted objects
      rw [visitEach_of_passes heeds passes undisputed, visitEach_cons, read_of_walks rfl,
        bind_of_ok _ passed, List.nil_append, if_neg barred]
      rfl

open Classical in
/-- There is exactly one way in which a walk along nodes ends. -/
theorem existsUnique_course (objection : Objection) (start : Walk) (nodes : List Node) :
    ∃! ending : Except Fault (List Ty) × Walk,
      Course objection start nodes ending.1 ending.2 := by
  let admitted : Admission := fun earlier type => decide (¬ objection earlier type)
  have heeds : Heeds admitted [] objection := by
    intro types type
    simp [admitted]
  obtain ⟨outcome, course, -⟩ := exists_course heeds start nodes
  refine ⟨(outcome, _), course, fun ending other => ?_⟩
  have first := visitEach_of_course heeds course
  have second := visitEach_of_course heeds other
  exact second.symm.trans first

/-! ## Rules -/

/-- A fault of a child is handed on as it is. If all children have passed, their types are judged,
and what the rule counts at the end has been counted by then. -/
def settle (outcome : Except Fault (List Ty)) (after : Walk) (verdict : List Ty → Except Fault Ty)
    (counts : Metrics) : Except Fault Ty × Walk :=
  match outcome with
  | .error fault => (.error fault, after)
  | .ok types => (verdict types, after.counting counts)

theorem Passes.length_eq {start after : Walk} {nodes : List Node} {types : List Ty}
    (passes : Passes start nodes types after) : types.length = nodes.length := by
  induction passes with
  | nil => rfl
  | cons _ _ ih => rw [List.length_cons, List.length_cons, ih]

/-- A rule with a plan takes the course of its children and judges at the end of it. -/
theorem visit_of_course {label : Label} {children : List Node} {gathering : Gathering}
    {objection : Objection} {verdict : List Ty → Except Fault Ty} {counts : Metrics}
    (planned : label.gathering? children.length = some gathering)
    (plain : gathering.position = .plain) (whole : gathering.onlyFirst = false)
    (enough : gathering.needsChild = true → children ≠ [])
    (heeds : Heeds gathering.admitted [] objection)
    (judged : ∀ types after, types.length = children.length →
      judge gathering types after = (verdict types, after.counting counts)) (walk : Walk) :
    ∃ outcome after,
      Course objection ((walk.visiting ⟨label, children⟩).counting gathering.before) children
        outcome after ∧
      visit ⟨label, children⟩ walk = settle outcome after verdict counts := by
  obtain ⟨outcome, course, -⟩ := exists_course heeds
    ((walk.visiting ⟨label, children⟩).counting gathering.before) children
  have ended := visitEach_of_course heeds course
  refine ⟨outcome, _, course, ?_⟩
  have present : ¬ (gathering.needsChild && children.isEmpty) = true := by
    intro missing
    obtain ⟨needed, empty⟩ := Bool.and_eq_true_iff.mp missing
    exact enough needed (List.isEmpty_iff.mp empty)
  have opened : visit ⟨label, children⟩ walk =
      (visitEach .plain gathering.admitted [] children >>= judge gathering)
        ((walk.visiting ⟨label, children⟩).counting gathering.before) := by
    have operands : gathering.operands children = children := by simp [Gathering.operands, whole]
    rw [visit_of_gathering planned, gather, if_neg present, operands, plain]
    rfl
  rw [opened]
  cases course with
  | passed passes undisputed =>
      rw [bind_of_ok _ ended]
      exact judged _ _ passes.length_eq
  | failed => exact bind_of_error _ ended
  | refused => exact bind_of_error _ ended

/-! ## What is held against a child -/

def Objection.never : Objection :=
  fun _ _ => False

def Objection.notNumber : Objection :=
  fun _ type => type ≠ .number

/-- An earlier child has a definite type, and the type of this child is not the first of these. -/
def Objection.differs : Objection :=
  fun earlier type => ∃ known, Ty.IsFirstKnown earlier known ∧ type ≠ known

private theorem heeds_never : Heeds .any [] .never := by
  intro types type
  simp [Admission.any, Objection.never]

private theorem heeds_notNumber : Heeds .numbers [] .notNumber := by
  intro types type
  simp [Admission.numbers, Objection.notNumber]

theorem heeds_differs : Heeds .alike [] .differs := by
  intro types type
  rw [List.nil_append, Admission.alike, Objection.differs]
  simp only [Ty.isFirstKnown_iff]
  by_cases known : Ty.firstKnown types = .unknown
  · simp [known]
  · simp [known, Ty.isKnown]

/-! ## Verdicts -/

/-- The first child is the condition; no other type matters. -/
def judgeCondition (types : List Ty) : Except Fault Ty :=
  if types.head? = some .bool then .ok .unknown else .error (.violation .invalidConditionType)

def judgeComparison (operator : Option Comparison) (types : List Ty) : Except Fault Ty :=
  if types.head?.any fun first => Comparison.admits operator first types.tail then .ok .bool
  else .error (.violation .invalidExpressionType)

private theorem judge_conditional_apply (types : List Ty) (after : Walk) :
    judge .conditional types after = (judgeCondition types, after.counting 0) := by
  rw [judge_conditional, judgeCondition, Walk.counting_zero]
  split <;> rfl

private theorem judge_comparison_apply (operator : Option Comparison) {types : List Ty}
    (several : 2 ≤ types.length) (after : Walk) :
    judge (.comparison operator) types after =
      (judgeComparison operator types, after.counting { operators := types.length - 1 }) := by
  cases types with
  | nil => simp at several
  | cons first rest =>
      cases rest with
      | nil => simp at several
      | cons second rest =>
          rw [judge_comparison, judgeComparison]
          simp only [List.head?_cons, Option.any_some, List.tail_cons]
          by_cases admitted : Comparison.admits operator first (second :: rest)
          · simp only [admitted, if_true]
            rfl
          · simp only [admitted]
            rfl

variable (walk : Walk) {children : List Node}

private theorem visit_conditional_of_course (nonempty : children ≠ []) {label : Label}
    {gathering : Gathering} (planned : label.gathering? children.length = some gathering)
    (conditional : gathering = .conditional ∨ gathering = .loop) :
    ∃ outcome after,
      Course .never ((walk.visiting ⟨label, children⟩).counting gathering.before) children
        outcome after ∧
      visit ⟨label, children⟩ walk = settle outcome after judgeCondition 0 := by
  rcases conditional with rfl | rfl <;>
    exact visit_of_course planned rfl rfl (fun _ => nonempty) heeds_never
      (fun types after _ => judge_conditional_apply types after) walk

private theorem visit_compExpr_of_course (several : 2 ≤ children.length)
    (operator : Option Comparison) :
    ∃ outcome after,
      Course .never (walk.visiting ⟨.compExpr operator, children⟩) children outcome after ∧
      visit ⟨.compExpr operator, children⟩ walk =
        settle outcome after (judgeComparison operator)
          { operators := children.length - 1 } := by
  have planned : (Label.compExpr operator).gathering? children.length =
      some (.comparison operator) := rfl
  have judged : ∀ types after, types.length = children.length →
      judge (.comparison operator) types after = (judgeComparison operator types,
        after.counting { operators := children.length - 1 }) := by
    intro types after length
    rw [← length] at several ⊢
    exact judge_comparison_apply operator several after
  rw [← Walk.counting_zero (walk.visiting _)]
  exact visit_of_course planned rfl rfl nofun heeds_never judged walk

private theorem visit_arithmetic_of_course (several : 2 ≤ children.length) {label : Label}
    (arithmetic : label = .addExpr ∨ label = .mulExpr) :
    ∃ outcome after,
      Course .notNumber ((walk.visiting ⟨label, children⟩).counting { operators := 1 }) children
        outcome after ∧
      visit ⟨label, children⟩ walk = settle outcome after (fun _ => .ok .number) 0 := by
  have planned : label.gathering? children.length = some .arithmetic := by
    have chain : ¬ children.length ≤ 1 := by omega
    rcases arithmetic with rfl | rfl <;> exact congrArg some (if_neg chain)
  have judged : ∀ types after, types.length = children.length →
      judge .arithmetic types after = (.ok .number, after.counting 0) := fun _ _ _ => rfl
  exact visit_of_course planned rfl rfl nofun heeds_notNumber judged walk

theorem visit_boolExpr_of_course (tokens : List String) :
    ∃ outcome after,
      Course .differs (walk.visiting ⟨.boolExpr tokens, children⟩) children outcome after ∧
      visit ⟨.boolExpr tokens, children⟩ walk =
        settle outcome after (fun types => .ok (if tokens = [] then Ty.firstKnown types else .bool))
          (if tokens = [] then 0 else { operators := 1 }) := by
  rw [← Walk.counting_zero (walk.visiting _)]
  cases tokens with
  | nil =>
      have planned : (Label.boolExpr []).gathering? children.length = some _ := rfl
      exact visit_of_course planned rfl rfl nofun heeds_differs (fun _ _ _ => rfl) walk
  | cons token tokens =>
      have planned : (Label.boolExpr (token :: tokens)).gathering? children.length =
          some .connective := rfl
      exact visit_of_course planned rfl rfl nofun heeds_differs (fun _ _ _ => rfl) walk

end Check

open Check in
/-- The first fault wins. A conditional or a loop, and a comparison of several operands, walks all
its children before it judges: if a child fails, its fault is reported, and otherwise the condition
is judged by the type of the first child and the operands after their operators have been counted. A
sum or product of several operands stops at the first of them that fails or is no number, and a
boolean chain at the first that fails or differs from the first definite type before it. Whenever a
child stops the walk, the table and the counters are left as this child has left them. How a walk
along nodes ends is determined by where it starts. -/
theorem first_fault_wins (walk : Walk) (children : List Node) :
    (children ≠ [] →
      (∃ outcome after,
        Course .never ((walk.visiting ⟨.ifStmt, children⟩).counting { ifs := 1 }) children
          outcome after ∧
        visit ⟨.ifStmt, children⟩ walk = settle outcome after judgeCondition 0) ∧
      ∃ outcome after,
        Course .never ((walk.visiting ⟨.whileStmt, children⟩).counting { whiles := 1 }) children
          outcome after ∧
        visit ⟨.whileStmt, children⟩ walk = settle outcome after judgeCondition 0) ∧
    (2 ≤ children.length →
      (∀ operator, ∃ outcome after,
        Course .never (walk.visiting ⟨.compExpr operator, children⟩) children outcome after ∧
        visit ⟨.compExpr operator, children⟩ walk =
          settle outcome after (judgeComparison operator)
            { operators := children.length - 1 }) ∧
      ∀ label, label = .addExpr ∨ label = .mulExpr → ∃ outcome after,
        Course .notNumber ((walk.visiting ⟨label, children⟩).counting { operators := 1 }) children
          outcome after ∧
        visit ⟨label, children⟩ walk = settle outcome after (fun _ => .ok .number) 0) ∧
    (∀ tokens, ∃ outcome after,
      Course .differs (walk.visiting ⟨.boolExpr tokens, children⟩) children outcome after ∧
      visit ⟨.boolExpr tokens, children⟩ walk =
        settle outcome after (fun types => .ok (if tokens = [] then Ty.firstKnown types else .bool))
          (if tokens = [] then 0 else { operators := 1 })) ∧
    ∀ objection start, ∃! ending : Except Fault (List Ty) × Walk,
      Course objection start children ending.1 ending.2 := by
  refine ⟨fun nonempty => ?_, fun several => ?_, ?_, ?_⟩
  · have conditional : Label.ifStmt.gathering? children.length = some .conditional := rfl
    have loop : Label.whileStmt.gathering? children.length = some .loop := rfl
    exact ⟨visit_conditional_of_course walk nonempty conditional (.inl rfl),
      visit_conditional_of_course walk nonempty loop (.inr rfl)⟩
  · exact ⟨visit_compExpr_of_course walk several,
      fun label => visit_arithmetic_of_course walk several⟩
  · exact visit_boolExpr_of_course walk
  · exact fun objection start => existsUnique_course objection start children

-- The fault in the body is reported, although the condition is no boolean.
example :
    (Session.check {} (.program [.ifStmt (.int 1) [.var "lamp"]])).outcome =
      .error (.violation (.undefinedIdentifier "lamp")) := by
  decide +kernel

end TreeCheck
