import TreeCheck.Proofs.Gaps

/-!
# Groups make no scopes

Blocks, statements and expressions only group other nodes. Where nodes are walked one after the
other for what they do, a group can be replaced by its own children: the last definite type of a
sequence is the same whether a part of it is summed up first or not, and names live on after the
group that declares them.
-/

set_option autoImplicit false

namespace TreeCheck

namespace Label

/-- The index from which on the children of a node form a sequence, where they do. The condition of
a conditional or of a loop stands before the sequence. -/
def sequenceFrom? : Label → Option Nat
  | .program | .block | .stmt | .expr => some 0
  | .ifStmt | .whileStmt => some 1
  | _ => none

/-- A group in a sequence gives way to its own children. -/
inductive Splices : Label → List Node → List Node → Prop
  | splice {label group : Label} {start : Nat} {before inner after : List Node}
      (runs : label.sequenceFrom? = some start) (placed : start ≤ before.length)
      (groups : group.isGroup = true) :
      Splices label (before ++ ⟨group, inner⟩ :: after) (before ++ inner ++ after)

end Label

/-! ## Types of sequences -/

namespace Ty

private theorem getLast?_filter_lastKnown (types : List Ty) :
    ([lastKnown types].filter isKnown).getLast? = (types.filter isKnown).getLast? := by
  unfold lastKnown
  cases last : (types.filter isKnown).getLast? with
  | none => simp
  | some type =>
      have known : type.isKnown = true := (List.mem_filter.mp (List.mem_of_getLast? last)).2
      simp [known]

/-- A part of a sequence may be summed up by its last definite type. -/
theorem lastKnown_splice (before types after : List Ty) :
    lastKnown (before ++ lastKnown types :: after) = lastKnown (before ++ types ++ after) := by
  have part := getLast?_filter_lastKnown types
  have split : before ++ lastKnown types :: after = before ++ [lastKnown types] ++ after := by simp
  rw [split]
  generalize lastKnown types = sum at part
  simp only [lastKnown, List.filter_append, List.getLast?_append, part]

end Ty

namespace Check

private theorem visitEach_append (position : Position) (admitted : Admission) (earlier : List Ty)
    (nodes later : List Node) :
    visitEach position admitted earlier (nodes ++ later) =
      visitEach position admitted earlier nodes >>= fun types =>
        visitEach position admitted types later := by
  induction nodes generalizing earlier with
  | nil => rw [List.nil_append, visitEach_nil, pure_bind]
  | cons node rest ih =>
      rw [List.cons_append, visitEach_cons, visitEach_cons, bind_assoc]
      congr 1
      funext type
      split
      · exact ih (earlier ++ [type])
      · rfl

private theorem alike_visitEach_self (nodes : List Node) (earlier : List Ty) :
    (visitEach .plain .any earlier nodes).Alike (visitEach .plain .any earlier nodes) :=
  alike_visitEach (List.forall₂_same.mpr fun node _ => alike_read_self .plain node) _ _

/-- A sequence with a group in it ends like the sequence with the children of the group, if what
follows only asks for the last definite type. -/
theorem alike_splice {α : Type} {group : Label} {finish : List Ty → Check α}
    (groups : group.isGroup = true) (self : ∀ types, (finish types).Alike (finish types))
    (sums : ∀ before types after,
      finish (before ++ Ty.lastKnown types :: after) = finish (before ++ types ++ after))
    (before inner after : List Node) :
    (visitEach .plain .any [] (before ++ ⟨group, inner⟩ :: after) >>= finish).Alike
      (visitEach .plain .any [] (before ++ inner ++ after) >>= finish) := by
  rw [List.append_assoc, visitEach_append, visitEach_append, bind_assoc, bind_assoc]
  apply (alike_visitEach_self before []).bind
  intro earlier
  rw [visitEach_append, bind_assoc, visitEach_any_bind .plain earlier inner]
  simp only [visitEach_cons, read, visit_of_isGroup groups, bind_assoc, pure_bind, Admission.any,
    if_true]
  have reported {step other : Check α} {event : Event} (alike : step.Alike other) :
      (emit event >>= fun _ => step).Alike other :=
    fun left right same => alike (emit event left).2 right same
  apply reported
  apply (alike_visitEach_self inner []).bind
  intro types
  rw [visitEach_any_bind .plain (earlier ++ [Ty.lastKnown types]) after,
    visitEach_any_bind .plain (earlier ++ types) after]
  apply (alike_visitEach_self after []).bind
  intro later
  simpa [sums] using self (earlier ++ types ++ later)

private theorem alike_splice_branch {label group : Label} (branches : label.isBranch = true)
    (groups : group.isGroup = true) (condition : Node) (before inner after : List Node) :
    (visit ⟨label, condition :: (before ++ ⟨group, inner⟩ :: after)⟩).Alike
      (visit ⟨label, condition :: (before ++ inner ++ after)⟩) := by
  obtain ⟨counts, visited⟩ := visit_of_isBranch branches
  rw [visited, visited]
  apply (alike_emit _ _).bind
  intro _
  apply (alike_count _).bind
  intro _
  simp only [visitEach_cons, bind_assoc, Admission.any, if_true, List.nil_append]
  apply (alike_read_self .plain condition).bind
  intro type
  rw [visitEach_any_bind .plain [type] (before ++ ⟨group, inner⟩ :: after),
    visitEach_any_bind .plain [type] (before ++ inner ++ after)]
  simp only [List.singleton_append, judge_conditional_cons type]
  exact alike_splice groups (fun _ => alike_judge _ _) (fun _ _ _ => rfl) before inner after

private theorem harmless_splices : Harmless Label.Splices where
  visit := by
    intro label children others spliced
    cases spliced with
    | @splice group start before inner after runs placed groups =>
        cases label with
        | program =>
            rw [visit, visit]
            exact (alike_emit _ _).bind fun _ => alike_fail _
        | block | stmt | expr =>
            rw [visit, visit]
            apply (alike_emit _ _).bind
            intro _
            exact alike_splice groups (fun _ => alike_pure _)
              (fun _ _ _ => congrArg _ (Ty.lastKnown_splice _ _ _)) before inner after
        | ifStmt | whileStmt =>
            cases runs
            cases before with
            | nil => simp at placed
            | cons condition before =>
                exact alike_splice_branch rfl groups condition before inner after
        | _ => cases runs
  items := by
    intro children others spliced
    cases spliced with
    | @splice group start before inner after runs placed groups =>
        rw [← visitEach_eq_items [], ← visitEach_eq_items []]
        exact alike_splice groups (fun _ => alike_pure _) (fun _ _ _ => rfl) before inner after
  noCase := by
    intro children others spliced
    cases spliced with
    | splice runs placed groups => cases runs

end Check

/-- Groups make no scopes. When groups in sequences are replaced by their children, any number of
times and at any depth, a program is checked as before: with the same outcome, the same names and
the same counters. So a name that is declared within groups is there for all that comes later in
any sequence, also in the bodies of conditionals and loops: it is never undefined, and a program
that declares it again is refused. Where the walk of the earlier nodes ends, a second declaration
is what is wrong with the program, and a use is as good as none. -/
theorem groups_make_no_scope (session : Session) {program flat : Node}
    (spliced : Relation.ReflTransGen (Node.Rewrites Label.Splices) program flat) :
    (session.check program).EndsLike (session.check flat) ∧
    ∀ (gap : Gap) (later : List Node) (metrics : Metrics) (name : String),
      flat = .program (gap.fill later) →
      (session.check (.program gap.passed)).outcome = .ok metrics →
      name ∈ (Node.program gap.passed).declared.map Prod.fst →
      (session.check program).outcome ≠ .error (.violation (.undefinedIdentifier name)) ∧
      (name ∈ (Node.program later).declared.map Prod.fst →
        ∃ fault, (session.check program).outcome = .error fault) ∧
      (∀ typeName rest, later = .declaration typeName name :: rest →
        (session.check program).outcome = .error (.violation (.multipleDeclaration name))) ∧
      (∀ rest, later = .var name :: rest →
        (session.check program).EndsLike (session.check (.program (gap.fill rest)))) := by
  have alike := session.check_of_rewritten Check.harmless_splices spliced
  refine ⟨alike, fun gap later metrics name shape accepted declared => ?_⟩
  subst shape
  rw [alike.outcome]
  obtain ⟨here, opened, bound⟩ := Session.opens_of_declared accepted declared
  refine ⟨?_, ?_, ?_, ?_⟩
  · exact Session.check_ne_undefined_of_bound opened bound later
  · exact Session.exists_fault_of_bound opened bound
  · intro typeName rest again
    subst again
    exact Session.check_declaration_of_bound opened bound typeName rest
  · intro rest used
    subst used
    exact alike.trans (Session.check_var_of_bound opened bound rest)

def Node.endless (body : List Node) : Node :=
  .whileStmt (.expr (.boolean true)) body

/-- A variable and a loop that uses it in a block, and then the same name in another statement. -/
def Node.nestedSteps : Node :=
  .program [.block [.stmt (.declaration "num" "steps"),
      .endless [.block [.block [], .var "steps"]]],
    .stmt (.declaration "bool" "steps")]

def Node.flatSteps : Node :=
  .program [.declaration "num" "steps", .endless [.var "steps"], .declaration "bool" "steps"]

private theorem nestedSteps_spliced :
    Relation.ReflTransGen (Node.Rewrites Label.Splices) .nestedSteps .flatSteps := by
  let first : Node := .declaration "num" "steps"
  let second : Node := .declaration "bool" "steps"
  let loop : Node := .endless [.block [.block [], .var "steps"]]
  have outer : Node.Rewrites Label.Splices .nestedSteps
      (.program [.stmt first, loop, .stmt second]) :=
    .here (@Label.Splices.splice _ .block 0 [] _ [.stmt second] rfl (by decide) rfl)
  have declared : Node.Rewrites Label.Splices (.program [.stmt first, loop, .stmt second])
      (.program [first, loop, .stmt second]) :=
    .here (@Label.Splices.splice _ .stmt 0 [] [first] _ rfl (by decide) rfl)
  have redeclared : Node.Rewrites Label.Splices (.program [first, loop, .stmt second])
      (.program [first, loop, second]) :=
    .here (@Label.Splices.splice _ .stmt 0 [first, loop] [second] [] rfl (by decide) rfl)
  have body (inner after : List Node) : Node.Rewrites Label.Splices
      (.program [first, .endless (.block inner :: after), second])
      (.program [first, .endless (inner ++ after), second]) :=
    @Node.Rewrites.inside _ .program [first] [second] _ _
      (.here (@Label.Splices.splice _ .block 1 [.expr (.boolean true)] inner after rfl (by decide)
        rfl))
  exact .head outer (.head declared (.head redeclared
    (.head (body [.block [], .var "steps"] []) (.single (body [] [.var "steps"])))))

theorem nestedSteps_make_no_scope :
    (Session.check {} .nestedSteps).EndsLike (Session.check {} .flatSteps) ∧
    (Session.check {} .nestedSteps).outcome =
      .error (.violation (.multipleDeclaration "steps")) ∧
    (Session.check {} .nestedSteps).EndsLike (Session.check {}
      (.program [.declaration "num" "steps", .endless [], .declaration "bool" "steps"])) := by
  obtain ⟨alike, named⟩ := groups_make_no_scope {} nestedSteps_spliced
  let first : Node := .declaration "num" "steps"
  let second : Node := .declaration "bool" "steps"
  let behind : Gap := .after [first, .endless [.var "steps"]]
  have accepted : (Session.check {} (.program behind.passed)).outcome =
      .ok { vars := 1, whiles := 1 } := by decide +kernel
  let within : Gap := .inside [first] (.branch .whileStmt rfl (.expr (.boolean true))) (.after [])
    [second]
  have entered : (Session.check {} (.program within.passed)).outcome = .ok { vars := 1 } := by
    decide +kernel
  exact ⟨alike, (named behind [second] _ "steps" rfl accepted (by decide +kernel)).2.2.1 _ [] rfl,
    (named within [.var "steps"] _ "steps" rfl entered (by decide +kernel)).2.2.2 [] rfl⟩

end TreeCheck
