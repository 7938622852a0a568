import TreeCheck.Proofs.Along
import TreeCheck.Proofs.Locality

/-!
# Items in sequence

A program is checked item by item, and the types of its items are not compared. So its check is the
walk of the items one after the other, closed at the end, and a program in two parts is checked like
two programs in one session, up to the counter of variables: it is written only at the end of an
accepted program, and no rule touches it before.
-/

set_option autoImplicit false

namespace TreeCheck

/-! ## Walking items -/

namespace Check

def items : List Node → Check Unit
  | [] => pure ()
  | item :: rest => do
    let _ ← visit item
    items rest

theorem items_append (earlier later : List Node) :
    items (earlier ++ later) = items earlier >>= fun _ => items later := by
  induction earlier with
  | nil => rfl
  | cons item rest ih => rw [List.cons_append, items, items, ih, bind_assoc]

theorem visitEach_eq_items (earlier : List Ty) (nodes : List Node) :
    (visitEach .plain .any earlier nodes >>= fun _ => pure ()) = items nodes := by
  induction nodes generalizing earlier with
  | nil =>
      rw [visitEach_nil]
      rfl
  | cons item rest ih =>
      rw [visitEach_cons, items, bind_assoc]
      exact congrArg (visit item >>= ·) (funext fun type => ih (earlier ++ [type]))

private theorem localTo_items {names : List String} {nodes : List Node}
    (mentioned : ∀ item ∈ nodes, item.names ⊆ names) : (items nodes).LocalTo names := by
  induction nodes with
  | nil => exact localTo_pure ()
  | cons item rest ih =>
      obtain ⟨first, others⟩ := List.forall_mem_cons.mp mentioned
      exact (localTo_visit first).bind fun _ => ih others

theorem localTo_items_names (nodes : List Node) :
    (items nodes).LocalTo (Node.program nodes).names :=
  localTo_items fun _ => Node.names_subset_of_mem

private theorem along_items {relation : Walk → Walk → Prop} (permits : Walk.Permits relation)
    (moved : ∀ item, (visit item).Along relation) (nodes : List Node) :
    (items nodes).Along relation := by
  induction nodes with
  | nil => exact along_pure permits ()
  | cons item rest ih => exact (moved item).bind permits fun _ => ih

end Check

/-- The run of a program whose items have been walked in this way. -/
def Run.close : Except Fault Unit × Walk → Run
  | (.ok _, reached) => reached.accept
  | (.error fault, reached) => reached.refuse fault

theorem Session.check_eq_close (session : Session) (nodes : List Node) :
    session.check (.program nodes) =
      .close (Check.items nodes ⟨session, [.checking (Node.program nodes).size]⟩) := by
  rcases run : session.readItems nodes with ⟨fault | types, reached⟩
  · have stopped := Check.bind_of_error (fun _ => pure ()) run
    rw [Check.visitEach_eq_items] at stopped
    rw [Node.program, stopped]
    exact check_of_error run
  · have done := Check.bind_of_ok (fun _ => pure ()) run
    rw [Check.visitEach_eq_items] at done
    rw [Node.program, done]
    exact check_of_ok run

/-! ## The same items from different walks -/

/-- The sessions have the same table and the same counters, the counter of variables apart. -/
structure Session.Matches (left right : Session) : Prop where
  symbols : left.symbols = right.symbols
  whiles : left.metrics.whiles = right.metrics.whiles
  ifs : left.metrics.ifs = right.metrics.ifs
  enumValues : left.metrics.enumValues = right.metrics.enumValues
  operators : left.metrics.operators = right.metrics.operators

namespace Session

variable {left right : Session}

theorem Matches.refl (session : Session) : session.Matches session :=
  ⟨rfl, rfl, rfl, rfl, rfl⟩

private theorem matches_counted (session : Session) : session.Matches session.counted :=
  ⟨rfl, rfl, rfl, rfl, rfl⟩

theorem Matches.eq_of_vars_eq (matched : left.Matches right)
    (vars : left.metrics.vars = right.metrics.vars) : left = right := by
  obtain ⟨symbols, whiles, ifs, enumValues, operators⟩ := matched
  have metrics : left.metrics = right.metrics := Metrics.ext vars whiles ifs enumValues operators
  cases left
  cases right
  cases symbols
  cases metrics
  rfl

theorem Matches.counted_eq (matched : left.Matches right) : left.counted = right.counted := by
  refine Matches.eq_of_vars_eq ?_ (congrArg SymbolTable.variableCount matched.symbols)
  exact ⟨matched.symbols, matched.whiles, matched.ifs, matched.enumValues, matched.operators⟩

theorem Matches.grow {left right leftAfter rightAfter : Walk} {growth : Growth}
    (matched : left.session.Matches right.session) (leftGrows : left.Grows growth leftAfter)
    (rightGrows : right.Grows growth rightAfter) :
    leftAfter.session.Matches rightAfter.session := by
  have leftIncrease := leftGrows.increase
  have rightIncrease := rightGrows.increase
  constructor
  · ext1
    rw [leftGrows.symbols, rightGrows.symbols, matched.symbols]
  · rw [leftIncrease.whiles, rightIncrease.whiles, matched.whiles]
  · rw [leftIncrease.ifs, rightIncrease.ifs, matched.ifs]
  · rw [leftIncrease.enumValues, rightIncrease.enumValues, matched.enumValues]
  · rw [leftIncrease.operators, rightIncrease.operators, matched.operators]

end Session

def Walk.KeepsVars (before after : Walk) : Prop :=
  after.session.metrics.vars = before.session.metrics.vars

theorem Walk.permits_keepsVars : Permits KeepsVars where
  refl _ := rfl
  trans first second := Eq.trans second first
  emit _ _ := rfl
  count _ none walk := congrArg (walk.session.metrics.vars + ·) none

namespace Check

theorem declare_keepsVars (name : String) (type : Ty) :
    (declare name type).Along Walk.KeepsVars := by
  intro walk
  rcases declare_cases name type walk with ⟨-, stopped⟩ | ⟨symbols, -, declared⟩
  · rw [stopped]
    rfl
  · rw [declared]
    rfl

private theorem items_keepsVars (nodes : List Node) : (items nodes).Along Walk.KeepsVars := by
  have permits := Walk.permits_keepsVars
  refine along_items permits (fun item => ?_) nodes
  exact along_visit permits (along_declareVariable permits declare_keepsVars)
    (along_declareEnum permits declare_keepsVars) item

private theorem items_of_matches {left right : Walk} (matched : left.session.Matches right.session)
    (nodes : List Node) :
    (items nodes left).1 = (items nodes right).1 ∧
      (items nodes left).2.session.Matches (items nodes right).2.session := by
  obtain ⟨growth, leftGrows, rightGrows, same⟩ := localTo_items_names nodes left right
    fun name _ => by rw [matched.symbols]
  exact ⟨same, matched.grow leftGrows rightGrows⟩

/-- The log makes no difference to where a walk leads. -/
theorem items_of_log {session : Session} {log : List Event} {nodes : List Node}
    {outcome : Except Fault Unit} {reached : Walk}
    (run : items nodes ⟨session, log⟩ = (outcome, reached)) (other : List Event) :
    ∃ after, items nodes ⟨session, other⟩ = (outcome, ⟨reached.session, after⟩) := by
  have kept := items_keepsVars nodes ⟨session, log⟩
  have keptOther : (items nodes ⟨session, other⟩).2.session.metrics.vars = session.metrics.vars :=
    items_keepsVars nodes ⟨session, other⟩
  obtain ⟨same, matched⟩ := items_of_matches
    (show Session.Matches (Walk.mk session log).session (Walk.mk session other).session from
      .refl session) nodes
  rw [run] at kept same matched
  have reachedSame := matched.eq_of_vars_eq (kept.trans keptOther.symm)
  refine ⟨(items nodes ⟨session, other⟩).2.log, Prod.ext same.symm ?_⟩
  rw [reachedSame]

end Check

/-! ## Programs in two parts -/

/-- Closed after the same items, sessions that match give runs that end alike. The counter of
variables agrees as well if the items are accepted, and is left alone otherwise. -/
theorem Run.close_of_matches {left right : Walk} (matched : left.session.Matches right.session)
    (nodes : List Node) :
    (close (Check.items nodes left)).outcome = (close (Check.items nodes right)).outcome ∧
    (close (Check.items nodes left)).session.Matches
      (close (Check.items nodes right)).session ∧
    (∀ metrics, (close (Check.items nodes right)).outcome = .ok metrics →
      (close (Check.items nodes left)).session.metrics.vars =
        (close (Check.items nodes right)).session.metrics.vars) ∧
    (∀ fault, (close (Check.items nodes right)).outcome = .error fault →
      (close (Check.items nodes left)).session.metrics.vars = left.session.metrics.vars ∧
      (close (Check.items nodes right)).session.metrics.vars = right.session.metrics.vars) := by
  have leftKept := Check.items_keepsVars nodes left
  have rightKept := Check.items_keepsVars nodes right
  obtain ⟨same, ended⟩ := Check.items_of_matches matched nodes
  rcases leftRun : Check.items nodes left with ⟨outcome, leftReached⟩
  rcases rightRun : Check.items nodes right with ⟨_, rightReached⟩
  rw [leftRun, rightRun] at same ended
  rw [leftRun] at leftKept
  rw [rightRun] at rightKept
  cases same
  cases outcome with
  | error fault =>
      refine ⟨rfl, ended, ?_, fun _ _ => ⟨leftKept, rightKept⟩⟩
      intro metrics accepted
      cases accepted
  | ok done =>
      have sessions : leftReached.session.counted = rightReached.session.counted :=
        ended.counted_eq
      rw [close, close, Walk.accept, Walk.accept, sessions]
      refine ⟨rfl, .refl _, fun _ _ => rfl, ?_⟩
      intro fault refused
      cases refused

/-- A program in two parts is checked like the two parts in one session. If the first part is
refused, the program is refused in the same way. Otherwise it ends like the second part, checked in
the session that the first part leaves. The counters of variables then agree if the second part is
accepted; if not, the program has left the counter as it was at its start and the second part as it
was at its own. -/
theorem check_append (session : Session) (earlier later : List Node) :
    (∀ fault, (session.check (.program earlier)).outcome = .error fault →
      (session.check (.program (earlier ++ later))).outcome = .error fault ∧
      (session.check (.program (earlier ++ later))).session =
        (session.check (.program earlier)).session) ∧
    (∀ metrics middle, (session.check (.program earlier)).outcome = .ok metrics →
      (session.check (.program earlier)).session = middle →
      (session.check (.program (earlier ++ later))).outcome =
        (middle.check (.program later)).outcome ∧
      (session.check (.program (earlier ++ later))).session.Matches
        (middle.check (.program later)).session ∧
      (∀ final, (middle.check (.program later)).outcome = .ok final →
        (session.check (.program (earlier ++ later))).session.metrics.vars =
          (middle.check (.program later)).session.metrics.vars) ∧
      (∀ fault, (middle.check (.program later)).outcome = .error fault →
        (session.check (.program (earlier ++ later))).session.metrics.vars =
          session.metrics.vars ∧
        (middle.check (.program later)).session.metrics.vars = middle.metrics.vars)) := by
  rw [session.check_eq_close earlier, session.check_eq_close (earlier ++ later),
    Check.items_append]
  rcases run : Check.items earlier ⟨session, _⟩ with ⟨outcome, reached⟩
  obtain ⟨log, rerun⟩ := Check.items_of_log run [.checking (Node.program (earlier ++ later)).size]
  cases outcome with
  | error fault =>
      rw [Check.bind_of_error _ rerun]
      constructor
      · rintro _ ⟨⟩
        exact ⟨rfl, rfl⟩
      · rintro metrics middle ⟨⟩
  | ok done =>
      rw [Check.bind_of_ok _ rerun]
      constructor
      · rintro fault ⟨⟩
      · rintro metrics _ ⟨⟩ rfl
        have kept : reached.session.metrics.vars = session.metrics.vars := by
          have unchanged := Check.items_keepsVars earlier
            ⟨session, [.checking (Node.program earlier).size]⟩
          rw [run] at unchanged
          exact unchanged
        rw [Session.check_eq_close, ← kept]
        exact Run.close_of_matches reached.session.matches_counted later

end TreeCheck
