import TreeCheck.Proofs.Precedence

/-!
# The operands of a boolean chain

A boolean chain measures its operands against the first of them that has a definite type. The
operands before that one have none, and they stay unchallenged. So the operands of an accepted chain
need not have the type of the first one: they do unless the first one is of no definite type and
another one is.
-/

set_option autoImplicit false

namespace TreeCheck

/-! ## The shape of shared types -/

namespace Ty

variable {types : List Ty} {type : Ty}

/-- Nothing definite comes first, and from the first definite type on there is no other. -/
theorem IsShared.eq_replicate (shared : IsShared types type) :
    ∃ leading following,
      types = List.replicate leading .unknown ++ List.replicate following type := by
  induction shared with
  | absent => exact ⟨0, 0, rfl⟩
  | indefinite _ ih =>
      obtain ⟨leading, following, rfl⟩ := ih
      exact ⟨leading + 1, following, rfl⟩
  | @definite types type _ repeated =>
      refine ⟨0, types.length + 1, ?_⟩
      rw [List.replicate_zero, List.nil_append, List.replicate_succ]
      exact congrArg _ (List.eq_replicate_of_mem repeated)

/-- Only a first type that is not definite can differ from the shared one. -/
theorem IsShared.forall_eq_head_iff (shared : IsShared types type) :
    (∀ other ∈ types, types.head? = some other) ↔
      (types.head? = some .unknown → ∀ other ∈ types, other = .unknown) := by
  cases shared with
  | absent => simp
  | indefinite => simp [eq_comm]
  | definite known repeated =>
      constructor
      · intro _ undecided
        exact absurd (Option.some.inj undecided) known
      · intro _ other member
        obtain rfl | later := List.mem_cons.mp member
        · rfl
        · rw [repeated other later, List.head?_cons]

end Ty

namespace Check

/-! ## Accepted chains -/

private theorem admitsAll_iff_undisputed {admitted : Admission} {objection : Objection}
    {earlier types : List Ty} (heeds : Heeds admitted earlier objection) :
    admitted.AdmitsAll earlier types ↔ Undisputed objection types := by
  induction types generalizing earlier objection with
  | nil => exact ⟨fun _ => undisputed_nil objection, fun _ => trivial⟩
  | cons type types ih =>
      rw [Admission.AdmitsAll, undisputed_cons_iff, heeds.head, ih (heeds.tail type)]

private theorem undisputed_differs_iff {types : List Ty} :
    Undisputed .differs types ↔ Ty.IsShared types (Ty.firstKnown types) := by
  rw [← admitsAll_iff_undisputed heeds_differs, Ty.isShared_iff, and_iff_left rfl]

/-- A boolean chain is accepted exactly if its operands pass and share a type. -/
theorem visit_boolExpr_eq_ok_iff {walk after : Walk} {tokens : List String} {children : List Node}
    {type : Ty} :
    visit ⟨.boolExpr tokens, children⟩ walk = (.ok type, after) ↔
      ∃ types middle, Passes (walk.visiting ⟨.boolExpr tokens, children⟩) children types middle ∧
        Ty.IsShared types (Ty.firstKnown types) ∧
        type = (if tokens = [] then Ty.firstKnown types else .bool) ∧
        after = middle.counting (if tokens = [] then 0 else { operators := 1 }) := by
  obtain ⟨outcome, reached, course, settled⟩ := visit_boolExpr_of_course walk tokens
  rw [settled]
  constructor
  · intro accepted
    cases course with
    | passed passes undisputed =>
        cases accepted
        exact ⟨_, _, passes, undisputed_differs_iff.mp undisputed, rfl, rfl⟩
    | failed => cases accepted
    | refused => cases accepted
  · rintro ⟨types, middle, passes, shared, rfl, rfl⟩
    have passed : Course .differs _ children (.ok types) middle :=
      .passed passes (undisputed_differs_iff.mpr shared)
    obtain ⟨_, _, unique⟩ := existsUnique_course .differs
      (walk.visiting ⟨.boolExpr tokens, children⟩) children
    cases (unique (outcome, reached) course).trans (unique (.ok types, middle) passed).symm
    rfl

end Check

open Check in
/-- In an accepted chain, operands of no definite type come first and all the others have one type.
They all have the type of the first operand exactly if that is definite or none of them is. -/
theorem accepted_chain_agrees_iff {walk after : Walk} {tokens : List String} {children : List Node}
    {type : Ty} (accepted : visit ⟨.boolExpr tokens, children⟩ walk = (.ok type, after)) :
    ∃ types middle shared,
      Passes (walk.visiting ⟨.boolExpr tokens, children⟩) children types middle ∧
      type = (if tokens = [] then shared else .bool) ∧
      (∃ leading following,
        types = List.replicate leading .unknown ++ List.replicate following shared) ∧
      ((∀ other ∈ types, types.head? = some other) ↔
        (types.head? = some .unknown → ∀ other ∈ types, other = .unknown)) := by
  obtain ⟨types, middle, passes, shared, rfl, -⟩ := visit_boolExpr_eq_ok_iff.mp accepted
  exact ⟨types, middle, _, passes, rfl, shared.eq_replicate, shared.forall_eq_head_iff⟩

open Check in
/-- In the chain `lamp && 1 < 2` the first operand is a boolean, and so is the other. -/
theorem lamp_chain_agrees :
    ∃ walk after middle types,
      visit (.and (.var "lamp") (.compare .less (.int 1) (.int 2))) walk = (.ok .bool, after) ∧
      Passes (walk.visiting (.and (.var "lamp") (.compare .less (.int 1) (.int 2))))
        [.var "lamp", .compare .less (.int 1) (.int 2)] types middle ∧
      types.head? = some .bool ∧ ∀ other ∈ types, types.head? = some other := by
  have accepted : visit (.and (.var "lamp") (.compare .less (.int 1) (.int 2)))
      (visit (.declaration "bool" "lamp") ⟨{}, []⟩).2 = (.ok .bool, _) := rfl
  obtain ⟨types, middle, shared, passes, -, -, agree⟩ := accepted_chain_agrees_iff accepted
  have first : types.head? = some .bool := by
    cases passes with
    | cons passed others =>
        cases passed
        rfl
  exact ⟨_, _, middle, types, accepted, passes, first, agree.mpr (by simp [first])⟩

open Check in
/-- The chain `u && true` is accepted for a variable `u` whose type does not exist, while
`true && u` is refused. Its operands do not have the type of the first one. -/
theorem undecided_operand_is_outvoted :
    analyze (.program [.declaration "Shade" "u",
        .stmt (.expr (.and (.var "u") (.boolean true)))]) = .ok { vars := 1, operators := 1 } ∧
    analyze (.program [.declaration "Shade" "u",
        .stmt (.expr (.and (.boolean true) (.var "u")))]) =
      .error (.violation .invalidExpressionType) ∧
    ¬ ∀ (walk after middle : Walk) (tokens : List String) (children : List Node) (type : Ty)
        (types : List Ty), visit ⟨.boolExpr tokens, children⟩ walk = (.ok type, after) →
        Passes (walk.visiting ⟨.boolExpr tokens, children⟩) children types middle →
        ∀ other ∈ types, types.head? = some other := by
  refine ⟨by decide +kernel, by decide +kernel, fun agree => ?_⟩
  have accepted : visit (.and (.var "u") (.boolean true))
      (visit (.declaration "Shade" "u") ⟨{}, []⟩).2 = (.ok .bool, _) := rfl
  have first := agree _ _ _ _ _ _ _ accepted (.cons rfl (.cons rfl .nil)) .bool (by decide)
  cases first

end TreeCheck
