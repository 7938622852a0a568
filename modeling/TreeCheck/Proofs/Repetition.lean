import TreeCheck.Proofs.Accounts
import TreeCheck.Proofs.Retyping
import TreeCheck.Proofs.ScriptProperties

/-!
# Checking a program again

What a walk has passed once it passes again in any table that holds what the walk has bound, except
that the names it has bound are then taken. So a program that is checked a second time in the
session that has just accepted it is stopped at the first name it declares, and at nothing before.
-/

set_option autoImplicit false

namespace TreeCheck

/-- How a step goes when it is repeated from a walk whose table holds all that it has bound: as
before if it has bound nothing, and else up to the name it has bound first. -/
def Walk.Repeats {α : Type} (later : Walk) (growth : Growth) (value : α)
    (again : Except Fault α × Walk) : Prop :=
  match growth.bindings with
  | [] => again.1 = .ok value ∧ later.Grows growth again.2
  | (name, _) :: _ =>
    again.1 = .error (.violation (.multipleDeclaration name)) ∧
      again.2.session.symbols = later.session.symbols

namespace Walk

variable {α : Type} {later : Walk} {growth : Growth} {value : α} {again : Except Fault α × Walk}

private theorem repeats_of_nil (silent : growth.bindings = []) :
    later.Repeats growth value again ↔ again.1 = .ok value ∧ later.Grows growth again.2 := by
  rw [Repeats, silent]

private theorem repeats_of_cons {name : String} {type : Ty} {rest : List (String × Ty)}
    (bound : growth.bindings = (name, type) :: rest) :
    later.Repeats growth value again ↔
      again.1 = .error (.violation (.multipleDeclaration name)) ∧
        again.2.session.symbols = later.session.symbols := by
  rw [Repeats, bound]

end Walk

namespace Check

/-- Whenever the step succeeds, the other step repeats it. -/
def RepeatedBy {α : Type} (step other : Check α) : Prop :=
  ∀ walk value after, step walk = (.ok value, after) →
    ∃ growth : Growth, walk.Grows growth after ∧
      ∀ later : Walk, after.session.symbols.IsPartOf later.session.symbols →
        later.Repeats growth value (other later)

theorem repeatedBy_pure {α : Type} (value : α) :
    (pure value : Check α).RepeatedBy (pure value) := by
  intro walk result after done
  cases done
  exact ⟨0, .refl walk, fun later _ => ⟨rfl, .refl later⟩⟩

theorem repeatedBy_fail {α : Type} (fault : Fault) (other : Check α) :
    (fail fault : Check α).RepeatedBy other := by
  intro walk value after done
  cases done

theorem repeatedBy_emit (event : Event) : (emit event).RepeatedBy (emit event) := by
  intro walk value after done
  cases done
  exact ⟨_, emit_grows event walk, fun later _ => ⟨rfl, emit_grows event later⟩⟩

theorem repeatedBy_count {update : Metrics → Metrics} {counts : Metrics}
    (adds : ∀ metrics, update metrics = metrics + counts) :
    (count update).RepeatedBy (count update) := by
  intro walk value after done
  cases done
  exact ⟨_, count_grows adds walk, fun later _ => ⟨rfl, count_grows adds later⟩⟩

/-- What has been repeated in two steps. The second is repeated only if the first has bound
nothing. -/
theorem repeats_bind {α β : Type} {step : Check α} {next : α → Check β} {result : α} {value : β}
    {earlier more : Growth} {later : Walk} (first : later.Repeats earlier result (step later))
    (second : ∀ reached : Walk, reached.session.symbols = later.session.symbols →
      reached.Repeats more value (next result reached)) :
    later.Repeats (earlier + more) value ((step >>= next) later) := by
  rcases run : step later with ⟨outcome, reached⟩
  rw [run] at first
  cases bound : earlier.bindings with
  | nil =>
      obtain ⟨rfl, grown⟩ := (Walk.repeats_of_nil bound).mp first
      have kept : reached.session.symbols = later.session.symbols := by
        have extended := grown.symbols
        rw [bound] at extended
        exact SymbolTable.extends_nil_iff.mp extended
      have same : (earlier + more).bindings = more.bindings := by simp [bound]
      rw [bind_of_ok next run]
      cases boundNext : more.bindings with
      | nil =>
          obtain ⟨done, grownNext⟩ := (Walk.repeats_of_nil boundNext).mp (second reached kept)
          exact (Walk.repeats_of_nil (same.trans boundNext)).mpr ⟨done, grown.trans grownNext⟩
      | cons binding others =>
          obtain ⟨stopped, keptNext⟩ :=
            (Walk.repeats_of_cons boundNext).mp (second reached kept)
          exact (Walk.repeats_of_cons (same.trans boundNext)).mpr
            ⟨stopped, keptNext.trans kept⟩
  | cons binding others =>
      obtain ⟨rfl, kept⟩ := (Walk.repeats_of_cons bound).mp first
      have same : (earlier + more).bindings = binding :: (others ++ more.bindings) := by
        simp [bound]
      rw [bind_of_error next run]
      exact (Walk.repeats_of_cons same).mpr ⟨rfl, kept⟩

theorem RepeatedBy.bind {α β : Type} {step other : Check α} {next nextOther : α → Check β}
    (repeated : step.RepeatedBy other)
    (continued : ∀ value, (next value).RepeatedBy (nextOther value)) :
    (step >>= next).RepeatedBy (other >>= nextOther) := by
  intro walk value after done
  obtain ⟨result, middle, ran, rest⟩ := bind_eq_ok_iff.mp done
  obtain ⟨growth, grows, again⟩ := repeated walk result middle ran
  obtain ⟨more, grown, againNext⟩ := continued result middle value after rest
  refine ⟨growth + more, grows.trans grown, fun later part => ?_⟩
  apply repeats_bind (again later (.trans ⟨_, grown.symbols⟩ part))
  intro reached kept
  exact againNext reached (by rw [kept]; exact part)

private theorem repeatedBy_current_bind {α : Type} {next nextOther : Session → Check α}
    (continued : ∀ left right : Session, left.symbols.IsPartOf right.symbols →
      (next left).RepeatedBy (nextOther right)) :
    (current >>= next).RepeatedBy (current >>= nextOther) := by
  intro walk value after done
  rw [current_bind_apply] at done
  obtain ⟨growth, grows, -⟩ := continued walk.session walk.session (.refl _) walk value after done
  refine ⟨growth, grows, fun later part => ?_⟩
  have grown : walk.session.symbols.IsPartOf later.session.symbols :=
    .trans ⟨_, grows.symbols⟩ part
  obtain ⟨other, otherGrows, again⟩ :=
    continued walk.session later.session grown walk value after done
  rw [grows.unique otherGrows]
  exact again later part

private theorem inherited_repeatedBy : Inherited fun step => step.RepeatedBy step where
  value := repeatedBy_pure
  stop fault := repeatedBy_fail fault _
  bind := RepeatedBy.bind
  visited _ _ := repeatedBy_emit _
  counted _ _ _ := repeatedBy_count fun _ => rfl
  found name next _ refused present := by
    intro walk value after done
    rw [lookup_bind_apply] at done
    cases found : walk.session.symbols.lookup name with
    | none =>
        rw [found] at done
        exact absurd done (refused walk value after)
    | some type =>
        rw [found] at done
        obtain ⟨growth, grows, again⟩ := present type walk value after done
        refine ⟨growth, grows, fun later part => ?_⟩
        have kept : walk.session.symbols.IsPartOf later.session.symbols :=
          .trans ⟨_, grows.symbols⟩ part
        rw [lookup_bind_apply, kept.lookup found]
        exact again later part

/-! ## Declarations -/

private theorem declare_again {name : String} {type : Ty} {walk after : Walk} {value : Unit}
    (done : declare name type walk = (.ok value, after)) :
    walk.Grows { bindings := [(name, type)] } after ∧
      ∀ (other : Ty) (later : Walk), after.session.symbols.IsPartOf later.session.symbols →
        declare name other later =
          (.error (.violation (.multipleDeclaration name)), later) := by
  rcases declare_cases name type walk with ⟨-, stopped⟩ | ⟨symbols, extended, declared⟩
  · rw [stopped] at done
    cases done
  · rw [declared] at done
    cases done
    refine ⟨declared_grows extended, fun other later part => ?_⟩
    have bound : later.session.symbols.lookup name = some type :=
      part.lookup (extended.lookup_of_mem List.mem_cons_self)
    rcases declare_cases name other later with ⟨-, taken⟩ | ⟨_, more, -⟩
    · exact taken
    · have fresh : name ∉ later.session.symbols.names := more.fresh (by simp)
      rw [← SymbolTable.lookup_eq_none_iff, bound] at fresh
      cases fresh

theorem repeatedBy_declare (name : String) (type : Ty) :
    (declare name type).RepeatedBy (declare name type) := by
  intro walk value after done
  obtain ⟨grows, again⟩ := declare_again done
  refine ⟨_, grows, fun later part => ?_⟩
  rw [again type later part]
  exact ⟨rfl, rfl⟩

/-- The type of a variable may be another one in the larger table. -/
theorem repeatedBy_announced (name : String) (type other : Ty) :
    (emit (.declareVariable name type) >>= fun _ => declare name type).RepeatedBy
      (emit (.declareVariable name other) >>= fun _ => declare name other) := by
  intro walk value after done
  rw [emit_bind_apply] at done
  obtain ⟨grows, again⟩ := declare_again done
  refine ⟨_, (emit_grows _ walk).trans grows, fun later part => ?_⟩
  rw [emit_bind_apply, again other (emit (.declareVariable name other) later).2 part]
  exact ⟨rfl, rfl⟩

private theorem repeatedBy_declareVariable (typeName : Option String) (children : List Node) :
    (declareVariable typeName children).RepeatedBy (declareVariable typeName children) := by
  have named := inherited_repeatedBy.identifierAt .declaration children
  rw [declareVariable]
  split
  · apply (named 0).bind
    intro enumType
    apply (named 1).bind
    intro name
    apply repeatedBy_current_bind
    intro left right part
    dsimp only
    split
    · rename_i known
      rw [if_pos (part.isTypeName known)]
      exact repeatedBy_announced name _ _
    · exact repeatedBy_fail _ _
  · apply (named 0).bind
    intro name
    apply repeatedBy_current_bind
    intro left right part
    exact repeatedBy_announced name _ _

private theorem repeatedBy_declareValues (index : Nat) (children : List Node) :
    (declareValues index children).RepeatedBy (declareValues index children) := by
  induction children generalizing index with
  | nil =>
      rw [declareValues]
      exact repeatedBy_pure ()
  | cons child rest ih =>
      rw [declareValues]
      exact (inherited_repeatedBy.identifier _ _ _).bind fun name =>
        (repeatedBy_declare name .enumValue).bind fun _ => ih (index + 1)

private theorem repeatedBy_declareEnum (children : List Node) :
    (declareEnum children).RepeatedBy (declareEnum children) := by
  cases children with
  | nil => exact repeatedBy_fail _ _
  | cons first values =>
      rw [declareEnum]
      apply (inherited_repeatedBy.identifier _ _ _).bind
      intro typeName
      apply (repeatedBy_count fun metrics => metrics.addEnumValues_eq values.length).bind
      intro _
      apply (repeatedBy_emit _).bind
      intro _
      exact (repeatedBy_declare typeName .enumType).bind fun _ => repeatedBy_declareValues 1 values

private theorem repeatedBy_visit (node : Node) : (visit node).RepeatedBy (visit node) :=
  inherited_repeatedBy.visit repeatedBy_declareVariable repeatedBy_declareEnum node

end Check

/-! ## Programs -/

/-- The names that an accepted program has bound are those that its shape says it declares. -/
theorem Session.declared_of_accepted {program : Node} {metrics : Metrics}
    (accepted : analyze program = .ok metrics) :
    program.declared = (Session.check {} program).session.symbols.entries.map
      fun entry => (entry.1, entry.2.origin) := by
  obtain ⟨growth, rest, extended, -, -, parts, left⟩ := Session.check_follows {} program
  have declared : (Session.check {} program).session.symbols.entries = growth.bindings := extended
  rw [show (Session.check {} program).outcome = .ok metrics from accepted] at left
  rw [show rest = 0 from left, add_zero] at parts
  rw [Node.declared, ← Script.ofNodes_declared, ← parts, declared]
  rfl

theorem Metrics.Increase.twice {counts once twice : Metrics}
    (first : Metrics.Increase {} counts once) (second : once.Increase counts twice) :
    twice.whiles = 2 * once.whiles ∧ twice.ifs = 2 * once.ifs ∧
      twice.enumValues = 2 * once.enumValues ∧ twice.operators = 2 * once.operators := by
  simp only [second.whiles, second.ifs, second.enumValues, second.operators, first.whiles,
    first.ifs, first.enumValues, first.operators]
  omega

theorem Session.items_of_accepted {session : Session} {program : Node} {metrics : Metrics}
    (accepted : (session.check program).outcome = .ok metrics) :
    ∃ items types reached, program = ⟨.program, items⟩ ∧
      session.readItems items = (.ok types, reached) ∧
      session.check program = reached.accept := by
  revert accepted
  refine session.check_cases program ?_ ?_ ?_
  · intro node other accepted
    cases accepted
  · intro items fault reached stopped accepted
    cases accepted
  · intro items types reached done _
    exact ⟨items, types, reached, rfl, done, rfl⟩

theorem Session.readItems_again {session : Session} {items : List Node} {types : List Ty}
    {reached : Walk} (done : session.readItems items = (.ok types, reached)) :
    ∃ growth,
      Walk.Grows ⟨session, [.checking (Node.mk .program items).size]⟩ growth reached ∧
      Walk.Repeats ⟨reached.session.counted, [.checking (Node.mk .program items).size]⟩ growth types
        (reached.session.counted.readItems items) := by
  have repeated := Check.inherited_repeatedBy.visitEach
    (fun item (_ : item ∈ items) => Check.repeatedBy_visit item) .plain .any []
  obtain ⟨growth, grows, again⟩ := repeated _ types reached done
  exact ⟨growth, grows, again _ (.refl _)⟩

/-- Values are counted only where there are names for them. -/
theorem Session.enumValues_of_undeclared {program : Node} {metrics : Metrics}
    (accepted : analyze program = .ok metrics)
    (silent : (Session.check {} program).session.symbols.entries = []) :
    metrics.enumValues = 0 := by
  obtain ⟨same, -⟩ := Session.metrics_of_accepted accepted
  obtain ⟨growth, extended, increase, accounts, -⟩ := Session.check_accounts {} program
  have none : growth.bindings = [] := Eq.trans (Eq.symm extended) silent
  rw [← same, increase.enumValues, ← (accounts.settled metrics accepted).counted, none]
  rfl

/-- An accepted program is checked again in the session that it leaves. If it declares a name, it is
refused because of the first name that it declares, and leaves the table as it is. If it declares
none, it is accepted again, and everything has been counted twice. -/
theorem check_again {program : Node} {metrics : Metrics}
    (accepted : analyze program = .ok metrics) :
    (∀ name origin later, program.declared = (name, origin) :: later →
      ((Session.check {} program).session.check program).outcome =
        .error (.violation (.multipleDeclaration name)) ∧
      ((Session.check {} program).session.check program).session.symbols =
        (Session.check {} program).session.symbols) ∧
    (program.declared = [] →
      ((Session.check {} program).session.check program).outcome =
        .ok { vars := 0, whiles := 2 * metrics.whiles, ifs := 2 * metrics.ifs, enumValues := 0,
              operators := 2 * metrics.operators } ∧
      (Session.check {} program).session.symbols = .empty ∧
      ((Session.check {} program).session.check program).session.symbols = .empty) := by
  have declaredNames := Session.declared_of_accepted accepted
  have unvalued := Session.enumValues_of_undeclared accepted
  obtain ⟨same, -⟩ := Session.metrics_of_accepted accepted
  obtain ⟨items, types, reached, rfl, done, ended⟩ := Session.items_of_accepted accepted
  obtain ⟨growth, grows, again⟩ := Session.readItems_again done
  have entries : reached.accept.session.symbols.entries = growth.bindings := grows.symbols
  rw [ended, entries] at declaredNames unvalued
  rw [ended] at same ⊢
  rcases rerun : reached.session.counted.readItems items with ⟨outcome, final⟩
  rw [rerun] at again
  constructor
  · intro name origin later declared
    rw [declaredNames] at declared
    obtain ⟨binding, rest, bindings, first, -⟩ := List.map_eq_cons_iff.mp declared
    cases first
    obtain ⟨rfl, kept⟩ := (Walk.repeats_of_cons bindings).mp again
    have stopped := Session.check_of_error rerun
    exact ⟨congrArg Run.outcome stopped, (congrArg (·.session.symbols) stopped).trans kept⟩
  · intro declared
    rw [declaredNames, List.map_eq_nil_iff] at declared
    obtain ⟨rfl, regrown⟩ := (Walk.repeats_of_nil declared).mp again
    have passed := Session.check_of_ok rerun
    have empty : reached.session.symbols = .empty := SymbolTable.ext (entries.trans declared)
    have stayed : final.session.symbols = .empty := by
      have kept := regrown.symbols
      rw [declared] at kept
      exact (SymbolTable.extends_nil_iff.mp kept).trans empty
    obtain ⟨whiles, ifs, enumValues, operators⟩ :=
      Metrics.Increase.twice (Session.increase_counted grows.increase) regrown.increase
    change reached.session.counted.metrics = metrics at same
    rw [same] at whiles ifs enumValues operators
    rw [unvalued declared] at enumValues
    refine ⟨(congrArg Run.outcome passed).trans (congrArg Except.ok ?_), empty,
      (congrArg (·.session.symbols) passed).trans stayed⟩
    exact Metrics.ext (congrArg SymbolTable.variableCount stayed) whiles ifs enumValues operators

/-- The conditional `if (!false)` without a body. -/
def Node.reminder : Node :=
  .program [.stmt (.ifStmt (.expr (.not (.boolean false))) [])]

theorem countdown_and_reminder_again :
    analyze .countdown = .ok { vars := 1, whiles := 1, enumValues := 2, operators := 3 } ∧
    ((Session.check {} .countdown).session.check .countdown).outcome =
      .error (.violation (.multipleDeclaration "light")) ∧
    analyze .reminder = .ok { ifs := 1, operators := 1 } ∧
    ((Session.check {} .reminder).session.check .reminder).outcome =
      .ok { ifs := 2, operators := 2 } := by
  have counted : analyze .countdown =
      .ok { vars := 1, whiles := 1, enumValues := 2, operators := 3 } := by decide +kernel
  have reminded : analyze .reminder = .ok { ifs := 1, operators := 1 } := by decide +kernel
  have declared : Node.countdown.declared = [("light", .enumeration), ("red", .enumValue),
      ("green", .enumValue), ("steps", .declaration)] := by decide +kernel
  have silent : Node.reminder.declared = [] := by decide +kernel
  obtain ⟨stopped, -⟩ := check_again counted
  obtain ⟨-, passed⟩ := check_again reminded
  exact ⟨counted, (stopped _ _ _ declared).1, reminded, (passed silent).1⟩

end TreeCheck
