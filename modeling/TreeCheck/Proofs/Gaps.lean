import TreeCheck.Proofs.Blame
import TreeCheck.Proofs.Rewriting
import TreeCheck.Proofs.ScriptProperties

/-!
# Gaps in a program

A gap is a place in one of the sequences of a program: after some items of the program itself, or of
the body of a group, a conditional or a loop, at any depth. Whatever a gap is filled with, the walk
of the program comes to it after the same nodes and goes on behind it in the same way. So a name
that one of these nodes declares is bound for all that is put into the gap.
-/

set_option autoImplicit false

namespace TreeCheck

namespace Label

/-- Nodes that only group others. -/
def isGroup : Label → Bool
  | .block | .stmt | .expr => true
  | _ => false

/-- Nodes whose first child is a condition and whose other children form a sequence. -/
def isBranch : Label → Bool
  | .ifStmt | .whileStmt => true
  | _ => false

end Label

/-- What a sequence below the root stands in. -/
inductive Enclosure
  | group (label : Label) (groups : label.isGroup = true)
  | branch (label : Label) (branches : label.isBranch = true) (condition : Node)

namespace Enclosure

def around : Enclosure → List Node → Node
  | group label _, body => ⟨label, body⟩
  | branch label _ condition, body => ⟨label, condition :: body⟩

/-- What is walked on the way in. -/
def entrance : Enclosure → List Node
  | group _ _ => []
  | branch _ _ condition => [condition]

end Enclosure

/-- A place in a sequence: after some items, or inside the item that follows them. -/
inductive Gap
  | after (items : List Node)
  | inside (items : List Node) (enclosure : Enclosure) (gap : Gap) (later : List Node)

namespace Gap

/-- The sequence with these nodes in the gap. -/
def fill : Gap → List Node → List Node
  | after items, nodes => items ++ nodes
  | inside items enclosure gap later, nodes => items ++ enclosure.around (gap.fill nodes) :: later

/-- What is walked before the gap. -/
def passed : Gap → List Node
  | after items => items
  | inside items enclosure gap _ => items ++ (enclosure.entrance ++ gap.passed)

end Gap

namespace Check

/-! ## Sequences of any types -/

/-- When any types go together, those read before do not matter until the end. -/
theorem visitEach_any_bind {α : Type} (position : Position) (earlier : List Ty)
    (nodes : List Node) (finish : List Ty → Check α) :
    visitEach position .any earlier nodes >>= finish =
      visitEach position .any [] nodes >>= fun types => finish (earlier ++ types) := by
  induction nodes generalizing earlier finish with
  | nil => simp [visitEach_nil]
  | cons node rest ih =>
      simp only [visitEach_cons, bind_assoc, Admission.any, if_true]
      congr 1
      funext type
      have whole := ih (earlier ++ [type]) finish
      have part := ih ([] ++ [type]) fun types => finish (earlier ++ types)
      simpa [List.append_assoc] using whole.trans (by simpa using part.symm)

theorem visit_of_isGroup {group : Label} (groups : group.isGroup = true) (inner : List Node) :
    visit ⟨group, inner⟩ =
      (emit (.visit group.kind inner.length) >>= fun _ =>
        visitEach .plain .any [] inner >>= fun types => pure (Ty.lastKnown types)) := by
  cases group with
  | block | stmt | expr => rw [visit]
  | _ => cases groups

/-- Conditionals and loops judge the type of their condition and nothing after it. -/
theorem judge_conditional_cons (type : Ty) (types : List Ty) :
    judge .conditional (type :: types) = judge .conditional [type] := by
  rw [judge_conditional, judge_conditional, List.head?_cons, List.head?_cons]

theorem visit_of_isBranch {label : Label} (branches : label.isBranch = true) :
    ∃ counts, ∀ condition body, visit ⟨label, condition :: body⟩ =
      emit (.visit label.kind (body.length + 1)) >>= fun _ => count (· + counts) >>= fun _ =>
        visitEach .plain .any [] (condition :: body) >>= judge .conditional := by
  cases label with
  | ifStmt => exact ⟨{ ifs := 1 }, fun _ _ => (visit_of_gathering rfl).trans rfl⟩
  | whileStmt => exact ⟨{ whiles := 1 }, fun _ _ => (visit_of_gathering rfl).trans rfl⟩
  | _ => cases branches

/-- A conditional or loop in a sequence walks its condition and its body and judges the type of the
condition at the end. -/
theorem items_of_isBranch {label : Label} (branches : label.isBranch = true) :
    ∃ counts, ∀ condition body, items [⟨label, condition :: body⟩] =
      (emit (.visit label.kind (body.length + 1)) >>= fun _ => count (· + counts) >>= fun _ =>
        visit condition) >>= fun type => items body >>= fun _ =>
          judge .conditional [type] >>= fun _ => pure () := by
  obtain ⟨counts, visited⟩ := visit_of_isBranch branches
  refine ⟨counts, fun condition body => ?_⟩
  have judged (type : Ty) :
      (visitEach .plain .any [type] body >>= fun types =>
        judge .conditional types >>= fun _ => pure ()) =
      items body >>= fun _ => judge .conditional [type] >>= fun _ => pure () := by
    rw [visitEach_any_bind .plain [type] body, ← visitEach_eq_items [] body, bind_assoc]
    simp only [List.singleton_append, judge_conditional_cons type, pure_bind]
  rw [items, items, visited]
  simp only [visitEach_cons, bind_assoc, Admission.any, if_true, List.nil_append, judged]
  rfl

/-! ## Walks that lead somewhere -/

/-- From the one session the step leads to the other, whatever has been logged. -/
def Leads {α : Type} (step : Check α) (session : Session) (value : α) (after : Session) : Prop :=
  ∀ log, ∃ more, step ⟨session, log⟩ = (.ok value, ⟨after, more⟩)

theorem LocalTo.exists_leads {α : Type} {names : List String} {step : Check α}
    (located : step.LocalTo names) {walk reached : Walk} {value : α}
    (run : step walk = (.ok value, reached)) {session : Session}
    (same : walk.session.symbols = session.symbols) :
    ∃ after, step.Leads session value after ∧ after.symbols = reached.session.symbols := by
  obtain ⟨growth, grows, other, outcome⟩ := located walk ⟨session, []⟩ fun _ _ => by rw [same]
  rw [run] at grows outcome
  refine ⟨(step ⟨session, []⟩).2.session, fun log => ?_, ?_⟩
  · obtain ⟨ok, reachedSame⟩ := located.alike ⟨session, log⟩ ⟨session, []⟩ rfl
    refine ⟨(step ⟨session, log⟩).2.log, Prod.ext (ok.trans outcome.symm) ?_⟩
    rw [← reachedSame]
  · ext1
    rw [other.symbols, grows.symbols, same]

theorem leads_emit (event : Event) (session : Session) : (emit event).Leads session () session :=
  fun log => ⟨log ++ [event], rfl⟩

theorem leads_count (update : Metrics → Metrics) (session : Session) :
    (count update).Leads session () { session with metrics := update session.metrics } :=
  fun log => ⟨log, rfl⟩

theorem Leads.bind_apply {α β : Type} {step : Check α} {session after : Session} {value : α}
    (leads : step.Leads session value after) (next : α → Check β) (log : List Event) :
    ∃ more, (step >>= next) ⟨session, log⟩ = next value ⟨after, more⟩ := by
  obtain ⟨more, run⟩ := leads log
  exact ⟨more, bind_of_ok next run⟩

theorem Leads.bind {α β : Type} {step : Check α} {next : α → Check β}
    {session middle after : Session} {value : α} {result : β}
    (leads : step.Leads session value middle) (continued : (next value).Leads middle result after) :
    (step >>= next).Leads session result after := by
  intro log
  obtain ⟨logMiddle, run⟩ := leads.bind_apply next log
  rw [run]
  exact continued logMiddle

/-- The walk of what the nodes are put into comes to the nodes in the session `here`, and goes on
after them in a way that does not depend on them. -/
def Opens (put : List Node → List Node) (session here : Session) : Prop :=
  ∃ resume : Check Unit, resume.Alike resume ∧ resume.Along Walk.KeepsBindings ∧
    ∀ nodes log, ∃ more,
      items (put nodes) ⟨session, log⟩ = (items nodes >>= fun _ => resume) ⟨here, more⟩

private theorem opens_id (session : Session) : Opens id session session := by
  refine ⟨pure (), alike_pure (), along_pure Walk.permits_keepsBindings (), fun nodes log => ?_⟩
  exact ⟨log, by rw [bind_pure_unit, id]⟩

theorem Opens.comp {outer inner : List Node → List Node} {session middle here : Session}
    (opened : Opens outer session middle) (within : Opens inner middle here) :
    Opens (outer ∘ inner) session here := by
  obtain ⟨resumeOuter, alikeOuter, keptOuter, comesOuter⟩ := opened
  obtain ⟨resume, alike, kept, comes⟩ := within
  refine ⟨resume >>= fun _ => resumeOuter, alike.bind fun _ => alikeOuter,
    kept.bind Walk.permits_keepsBindings fun _ => keptOuter, fun nodes log => ?_⟩
  obtain ⟨logInner, run⟩ := comesOuter (inner nodes) log
  obtain ⟨more, runInner⟩ := comes nodes logInner
  refine ⟨more, ?_⟩
  rw [Function.comp_apply, run, bind_apply, runInner, ← bind_assoc]
  exact (bind_apply _ _ _).symm

theorem Opens.behind {put : List Node → List Node} {before : List Node}
    {session middle here : Session} (passed : (items before).Leads session () middle)
    (opened : Opens put middle here) : Opens (fun nodes => before ++ put nodes) session here := by
  obtain ⟨resume, alike, kept, comes⟩ := opened
  refine ⟨resume, alike, kept, fun nodes log => ?_⟩
  obtain ⟨logMiddle, run⟩ := passed log
  obtain ⟨more, rest⟩ := comes nodes logMiddle
  exact ⟨more, by rw [items_append, bind_of_ok _ run, rest]⟩

private theorem items_keepsBindings (nodes : List Node) :
    (items nodes).Along Walk.KeepsBindings := by
  rw [← visitEach_eq_items []]
  exact (visitEach_keepsBindings nodes .plain .any []).bind Walk.permits_keepsBindings fun _ =>
    along_pure Walk.permits_keepsBindings ()

theorem Opens.before {put : List Node → List Node} {session here : Session}
    (opened : Opens put session here) (later : List Node) :
    Opens (fun nodes => put nodes ++ later) session here := by
  obtain ⟨resume, alike, kept, comes⟩ := opened
  refine ⟨resume >>= fun _ => items later,
    alike.bind fun _ => (localTo_items_names later).alike,
    kept.bind Walk.permits_keepsBindings fun _ => items_keepsBindings later, fun nodes log => ?_⟩
  obtain ⟨more, run⟩ := comes nodes log
  refine ⟨more, ?_⟩
  rw [items_append, bind_apply, run, ← bind_assoc]
  exact (bind_apply _ _ _).symm

private theorem opens_group {label : Label} (groups : label.isGroup = true) (session : Session) :
    Opens (fun body => [⟨label, body⟩]) session session := by
  refine ⟨pure (), alike_pure (), along_pure Walk.permits_keepsBindings (), fun body log => ?_⟩
  have walked : items [⟨label, body⟩] =
      emit (.visit label.kind body.length) >>= fun _ => items body >>= fun _ => pure () := by
    rw [items, items, visit_of_isGroup groups, ← visitEach_eq_items []]
    simp only [bind_assoc, pure_bind]
  rw [walked]
  exact (leads_emit _ session).bind_apply _ log

private theorem opens_branch {label : Label} (branches : label.isBranch = true) {condition : Node}
    {type : Ty} {walk reached : Walk} (run : visit condition walk = (.ok type, reached))
    {session : Session} (same : walk.session.symbols = session.symbols) :
    ∃ here, here.symbols = reached.session.symbols ∧
      Opens (fun body => [⟨label, condition :: body⟩]) session here := by
  obtain ⟨counts, walked⟩ := items_of_isBranch branches
  let counted : Session := { session with metrics := session.metrics + counts }
  obtain ⟨here, leads, symbols⟩ :=
    (localTo_visit (List.Subset.refl condition.names)).exists_leads run
      (show walk.session.symbols = counted.symbols from same)
  refine ⟨here, symbols, judge .conditional [type] >>= fun _ => pure (),
    (alike_judge _ _).bind fun _ => alike_pure (),
    (along_judge Walk.permits_keepsBindings _ _).bind Walk.permits_keepsBindings fun _ =>
      along_pure Walk.permits_keepsBindings (), fun body log => ?_⟩
  rw [walked]
  exact ((leads_emit _ session).bind ((leads_count _ session).bind leads)).bind_apply _ log

private theorem opens_around (enclosure : Enclosure) {walk reached : Walk}
    (passed : items enclosure.entrance walk = (.ok (), reached)) {session : Session}
    (same : walk.session.symbols = session.symbols) :
    ∃ here, here.symbols = reached.session.symbols ∧
      Opens (fun body => [enclosure.around body]) session here := by
  cases enclosure with
  | group label groups =>
      cases passed
      exact ⟨session, same.symm, opens_group groups session⟩
  | branch label branches condition =>
      obtain ⟨type, middle, run, done⟩ := bind_eq_ok_iff.mp passed
      cases done
      exact opens_branch branches run same

end Check

theorem Gap.opens (gap : Gap) {walk reached : Walk}
    (passed : Check.items gap.passed walk = (.ok (), reached)) {session : Session}
    (same : walk.session.symbols = session.symbols) :
    ∃ here, here.symbols = reached.session.symbols ∧ Check.Opens gap.fill session here := by
  induction gap generalizing walk session with
  | after items =>
      obtain ⟨here, leads, symbols⟩ := (Check.localTo_items_names items).exists_leads passed same
      exact ⟨here, symbols, .behind leads (Check.opens_id here)⟩
  | inside items enclosure gap later ih =>
      rw [Gap.passed, Check.items_append, Check.items_append] at passed
      obtain ⟨_, first, before, rest⟩ := Check.bind_eq_ok_iff.mp passed
      obtain ⟨_, second, entered, within⟩ := Check.bind_eq_ok_iff.mp rest
      obtain ⟨outside, leads, symbols⟩ :=
        (Check.localTo_items_names items).exists_leads before same
      obtain ⟨entrance, known, opened⟩ := Check.opens_around enclosure entered symbols.symm
      obtain ⟨here, reachedHere, filled⟩ := ih within known.symm
      exact ⟨here, reachedHere, .behind leads ((opened.comp filled).before later)⟩

/-! ## Names that are bound before a gap -/

namespace Check

private theorem visit_declaration_of_bound {name : String} {walk : Walk}
    (bound : name ∈ walk.session.symbols.names) (typeName : String) :
    ∃ after, visit (.declaration typeName name) walk =
      (.error (.violation (.multipleDeclaration name)), after) := by
  have refused (type : Ty) (log : List Event) : declare name type ⟨walk.session, log⟩ =
      (.error (.violation (.multipleDeclaration name)), ⟨walk.session, log⟩) := by
    simp [declare, SymbolTable.declare_of_mem type bound]
  exact ⟨_, bind_of_ok _ rfl |>.trans (bind_of_error _ (refused _ _))⟩

private theorem visit_var_of_bound {name : String} {walk : Walk}
    (bound : name ∈ walk.session.symbols.names) :
    ∃ found log, visit (.var name) walk = (.ok found, ⟨walk.session, log⟩) := by
  obtain ⟨type, found⟩ : ∃ type, walk.session.symbols.lookup name = some type := by
    rw [← Option.isSome_iff_exists, ← Option.ne_none_iff_isSome]
    exact fun unbound => SymbolTable.lookup_eq_none_iff.mp unbound bound
  simp [Node.var, Node.ident, visit, visitEach_cons, visitEach_nil, read, resolve, bind_apply, emit,
    found, Admission.any]

/-- A name that is undefined for some node is unbound to the end. -/
theorem not_mem_names_of_undefined {name : String} {nodes : List Node} {walk after : Walk}
    (stopped : items nodes walk = (.error (.violation (.undefinedIdentifier name)), after)) :
    name ∉ after.session.symbols.names := by
  rw [← visitEach_eq_items []] at stopped
  have blamed := (blames_visitEach (fun node (_ : node ∈ nodes) => blames_visit node) .plain .any
    []).bind (fun _ => blames_pure ()) walk _ after stopped
  rcases blamed with (⟨node, -, -, -, unbound⟩ | objected) | ⟨other, -⟩
  · exact SymbolTable.lookup_eq_none_iff.mp unbound
  · exact objected.elim
  · cases other

/-- The names bound where the walk comes to the nodes are bound at its end. -/
theorem Opens.mem_names {put : List Node → List Node} {session here : Session}
    (opened : Opens put session here) {name : String} (bound : name ∈ here.symbols.names)
    (nodes : List Node) (log : List Event) :
    name ∈ (items (put nodes) ⟨session, log⟩).2.session.symbols.names := by
  obtain ⟨resume, -, kept, comes⟩ := opened
  obtain ⟨more, run⟩ := comes nodes log
  obtain ⟨bindings, extended⟩ := (items_keepsBindings nodes).bind Walk.permits_keepsBindings
    (fun _ => kept) ⟨here, more⟩
  rw [run, extended.names_eq]
  exact List.mem_append_left _ bound

end Check

namespace Session

private theorem gains_of_accepted {session : Session} {program : Node} {metrics : Metrics}
    (accepted : (session.check program).outcome = .ok metrics) :
    session.symbols.Gains program.declared (session.check program).session.symbols := by
  obtain ⟨growth, rest, extended, -, -, parts, left⟩ := session.check_follows program
  rw [accepted] at left
  obtain rfl : rest = 0 := left
  rw [add_zero] at parts
  rw [Node.declared, ← Script.ofNodes_declared, ← parts]
  exact extended.gains

private theorem items_ok_of_accepted {session : Session} {nodes : List Node} {metrics : Metrics}
    (accepted : (session.check (.program nodes)).outcome = .ok metrics) :
    ∃ reached, Check.items nodes ⟨session, [.checking (Node.program nodes).size]⟩ =
        (.ok (), reached) ∧
      reached.session.symbols = (session.check (.program nodes)).session.symbols := by
  rw [session.check_eq_close] at accepted ⊢
  rcases run : Check.items nodes ⟨session, [.checking (Node.program nodes).size]⟩
    with ⟨fault | done, reached⟩
  · rw [run] at accepted
    cases accepted
  · exact ⟨reached, rfl, rfl⟩

/-- The walk comes to a gap with all names bound that are declared before it, at whatever depth. -/
theorem opens_of_declared {session : Session} {gap : Gap} {metrics : Metrics} {name : String}
    (accepted : (session.check (.program gap.passed)).outcome = .ok metrics)
    (declared : name ∈ (Node.program gap.passed).declared.map Prod.fst) :
    ∃ here, Check.Opens gap.fill session here ∧ name ∈ here.symbols.names := by
  obtain ⟨reached, passed, symbols⟩ := items_ok_of_accepted accepted
  obtain ⟨here, known, opened⟩ := gap.opens passed rfl
  refine ⟨here, opened, ?_⟩
  rw [known, symbols, (gains_of_accepted accepted).names]
  exact .inr declared

section

variable {session here : Session} {gap : Gap} {name : String}
  (opened : Check.Opens gap.fill session here) (bound : name ∈ here.symbols.names)

include opened bound

theorem check_ne_undefined_of_bound (nodes : List Node) :
    (session.check (.program (gap.fill nodes))).outcome ≠
      .error (.violation (.undefinedIdentifier name)) := by
  have kept := opened.mem_names bound nodes [.checking (Node.program (gap.fill nodes)).size]
  rw [check_eq_close]
  rcases run : Check.items (gap.fill nodes) ⟨session, [.checking (Node.program _).size]⟩
    with ⟨fault | done, after⟩
  · intro refused
    cases refused
    rw [run] at kept
    exact Check.not_mem_names_of_undefined run kept
  · intro refused
    cases refused

theorem exists_fault_of_bound {nodes : List Node}
    (again : name ∈ (Node.program nodes).declared.map Prod.fst) :
    ∃ fault, (session.check (.program (gap.fill nodes))).outcome = .error fault := by
  cases outcome : (session.check (.program (gap.fill nodes))).outcome with
  | error fault => exact ⟨fault, rfl⟩
  | ok metrics =>
      obtain ⟨reached, run, -⟩ := items_ok_of_accepted outcome
      obtain ⟨resume, -, -, comes⟩ := opened
      obtain ⟨more, filled⟩ := comes nodes [.checking (Node.program (gap.fill nodes)).size]
      rw [filled] at run
      obtain ⟨_, middle, walked, -⟩ := Check.bind_eq_ok_iff.mp run
      obtain ⟨_, accepted⟩ : ∃ metrics, (here.check (.program nodes)).outcome = .ok metrics := by
        obtain ⟨after, rerun⟩ := Check.items_of_log walked [.checking (Node.program nodes).size]
        rw [check_eq_close, rerun]
        exact ⟨_, rfl⟩
      exact absurd bound ((gains_of_accepted accepted).fresh name again)

theorem check_declaration_of_bound (typeName : String) (rest : List Node) :
    (session.check (.program (gap.fill (.declaration typeName name :: rest)))).outcome =
      .error (.violation (.multipleDeclaration name)) := by
  obtain ⟨resume, -, -, comes⟩ := opened
  rw [check_eq_close]
  obtain ⟨more, filled⟩ := comes (.declaration typeName name :: rest)
    [.checking (Node.program (gap.fill (.declaration typeName name :: rest))).size]
  obtain ⟨after, stopped⟩ := @Check.visit_declaration_of_bound name ⟨here, more⟩ bound typeName
  rw [filled, Check.items, bind_assoc, Check.bind_of_error _ stopped]
  rfl

theorem check_var_of_bound (rest : List Node) :
    (session.check (.program (gap.fill (.var name :: rest)))).EndsLike
      (session.check (.program (gap.fill rest))) := by
  obtain ⟨resume, alike, -, comes⟩ := opened
  rw [check_eq_close, check_eq_close]
  obtain ⟨more, filled⟩ := comes (.var name :: rest)
    [.checking (Node.program (gap.fill (.var name :: rest))).size]
  obtain ⟨other, without⟩ := comes rest [.checking (Node.program (gap.fill rest)).size]
  obtain ⟨_, logRead, read⟩ := @Check.visit_var_of_bound name ⟨here, more⟩ bound
  rw [filled, without, Check.items, bind_assoc, Check.bind_of_ok _ read]
  obtain ⟨outcome, reached⟩ := (Check.localTo_items_names rest).alike.bind (fun _ => alike)
    ⟨here, logRead⟩ ⟨here, other⟩ rfl
  exact Run.close_endsLike outcome reached

end

end Session

end TreeCheck
