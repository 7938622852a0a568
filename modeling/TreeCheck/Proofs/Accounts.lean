import Mathlib.Algebra.GroupWithZero.Nat
import TreeCheck.Proofs.Following
import TreeCheck.Proofs.Inherited

/-!
# Accounts of a walk

A walk keeps three accounts of the names it binds: it announces them in its log, it adds them to the
table, and it counts the values of enumerations. An enumeration is announced and counted as a whole
before any of its names is bound, so the accounts may differ where a walk is stopped; but then it is
the table that is behind. Where a walk succeeds, the accounts agree.
-/

set_option autoImplicit false

namespace TreeCheck

namespace Event

def announcesVariable : Event → Bool
  | .declareVariable _ _ => true
  | _ => false

/-- The number of values of an enumeration that is announced. -/
def values? : Event → Option Nat
  | .declareEnum _ values => some values
  | _ => none

/-- Whether a program is reported to be accepted. -/
def closes : Event → Bool
  | .wellTyped _ _ _ => true
  | _ => false

end Event

namespace Growth

/-- The accounts agree. -/
structure Balanced (growth : Growth) : Prop where
  vars : growth.events.countP Event.announcesVariable =
    growth.bindings.countP fun binding => binding.2.isVariable
  enumTypes : (growth.events.filterMap Event.values?).length =
    growth.bindings.countP fun binding => binding.2 == .enumType
  announced : (growth.events.filterMap Event.values?).sum = growth.counts.enumValues
  counted : (growth.bindings.countP fun binding => binding.2 == .enumValue) =
    growth.counts.enumValues

private theorem balanced_zero : (0 : Growth).Balanced :=
  ⟨rfl, rfl, rfl, rfl⟩

theorem Balanced.add {earlier later : Growth} (first : earlier.Balanced)
    (second : later.Balanced) : (earlier + later).Balanced where
  vars := by simp [first.vars, second.vars]
  enumTypes := by simp [first.enumTypes, second.enumTypes]
  announced := by simp [first.announced, second.announced]
  counted := by simp [first.counted, second.counted]

private theorem balanced_variable (name : String) {type : Ty}
    (origin : type.origin = .declaration) :
    ({ events := [.declareVariable name type] } +
      { bindings := [(name, type)] } : Growth).Balanced := by
  cases type with
  | enumType | enumValue => cases origin
  | _ => exact ⟨rfl, rfl, rfl, rfl⟩

private theorem balanced_enum (typeName : String) (names : List String) :
    ({ counts := { enumValues := names.length } } +
      ({ events := [.declareEnum typeName names.length] } +
        ({ bindings := [(typeName, .enumType)] } +
          { bindings := names.map (·, .enumValue) })) : Growth).Balanced := by
  constructor <;> simp [Event.announcesVariable, Event.values?, Ty.isVariable, Function.comp_def]

/-- What can be said about the accounts of a step that ends with this outcome. -/
structure Accounts {α : Type} (outcome : Except Fault α) (growth : Growth) : Prop where
  running : ∀ event ∈ growth.events, event.closes = false
  covered : (growth.bindings.countP fun binding => binding.2 == .enumValue) ≤
    growth.counts.enumValues
  settled : ∀ value, outcome = .ok value → growth.Balanced

private theorem accounts_zero {α : Type} (outcome : Except Fault α) : Accounts outcome 0 where
  running _ member := by cases member
  covered := Nat.le_refl 0
  settled _ _ := balanced_zero

theorem Balanced.accounts {α : Type} {growth : Growth} (balanced : growth.Balanced)
    (running : ∀ event ∈ growth.events, event.closes = false) (outcome : Except Fault α) :
    Accounts outcome growth :=
  ⟨running, Nat.le_of_eq balanced.counted, fun _ _ => balanced⟩

theorem Accounts.of_error {α β : Type} {growth : Growth} {fault : Fault}
    (accounts : Accounts (.error fault : Except Fault α) growth) :
    Accounts (.error fault : Except Fault β) growth :=
  ⟨accounts.running, accounts.covered, fun _ done => by cases done⟩

theorem Accounts.add {α β : Type} {earlier later : Growth} {value : α} {outcome : Except Fault β}
    (first : Accounts (.ok value : Except Fault α) earlier) (second : Accounts outcome later) :
    Accounts outcome (earlier + later) where
  running := List.forall_mem_append.mpr ⟨first.running, second.running⟩
  covered := by
    have before := first.covered
    have after := second.covered
    simp only [add_bindings, List.countP_append, add_counts, Metrics.add_enumValues]
    omega
  settled result ended := (first.settled value rfl).add (second.settled result ended)

/-- The accounts of an enumeration, of which not more than the announced values have been bound. -/
theorem accounts_enum (typeName : String) {names : List String} {values : Nat}
    {outcome : Except Fault Unit} (most : names.length ≤ values)
    (all : outcome = .ok () → names.length = values) :
    Accounts outcome ({ counts := { enumValues := values } } +
      ({ events := [.declareEnum typeName values] } +
        ({ bindings := [(typeName, .enumType)] } +
          { bindings := names.map (·, .enumValue) }))) where
  running := by simp [Event.closes]
  covered := by simpa [Function.comp_def] using most
  settled _ done := by
    rw [← all done]
    exact balanced_enum typeName names

end Growth

namespace Check

/-- What is stated about the outcome of the step and what it has gained is true. -/
def Gains {α : Type} (step : Check α) (stated : Except Fault α → Growth → Prop) : Prop :=
  ∀ walk : Walk, ∃ growth : Growth, walk.Grows growth (step walk).2 ∧ stated (step walk).1 growth

/-- The step leaves the walk as it is. -/
def Idle {α : Type} (step : Check α) : Prop :=
  ∀ walk : Walk, (step walk).2 = walk

theorem Idle.gains {α : Type} {step : Check α} {stated : Except Fault α → Growth → Prop}
    (idle : step.Idle) (holds : ∀ outcome, stated outcome 0) : step.Gains stated := by
  intro walk
  rw [idle walk]
  exact ⟨0, .refl walk, holds _⟩

private theorem gains_emit_bind {α : Type} {event : Event} {next : Check α}
    {stated : Except Fault α → Growth → Prop}
    (continued : next.Gains fun outcome growth => stated outcome ({ events := [event] } + growth)) :
    (emit event >>= fun _ => next).Gains stated := by
  intro walk
  obtain ⟨growth, grows, holds⟩ := continued (emit event walk).2
  exact ⟨_, (emit_grows event walk).trans grows, holds⟩

private theorem gains_count_bind {α : Type} {update : Metrics → Metrics} {counts : Metrics}
    (adds : ∀ metrics, update metrics = metrics + counts) {next : Check α}
    {stated : Except Fault α → Growth → Prop}
    (continued : next.Gains fun outcome growth => stated outcome ({ counts } + growth)) :
    (count update >>= fun _ => next).Gains stated := by
  intro walk
  obtain ⟨growth, grows, holds⟩ := continued (count update walk).2
  exact ⟨_, (count_grows adds walk).trans grows, holds⟩

theorem gains_declare (name : String) (type : Ty) :
    (declare name type).Gains fun outcome growth =>
      (∃ fault, outcome = .error fault ∧ growth = 0) ∨
        outcome = .ok () ∧ growth = { bindings := [(name, type)] } := by
  intro walk
  rcases declare_cases name type walk with ⟨-, stopped⟩ | ⟨symbols, extended, declared⟩
  · rw [stopped]
    exact ⟨0, .refl walk, .inl ⟨_, rfl, rfl⟩⟩
  · rw [declared]
    exact ⟨_, declared_grows extended, .inr ⟨rfl, rfl⟩⟩

theorem Gains.bind {α β : Type} {step : Check α} {next : α → Check β}
    {first : Except Fault α → Growth → Prop} {second : α → Except Fault β → Growth → Prop}
    {stated : Except Fault β → Growth → Prop} (gains : step.Gains first)
    (continued : ∀ value, (next value).Gains (second value))
    (stopped : ∀ fault growth, first (.error fault) growth → stated (.error fault) growth)
    (joined : ∀ value outcome earlier later, first (.ok value) earlier →
      second value outcome later → stated outcome (earlier + later)) :
    (step >>= next).Gains stated := by
  intro walk
  obtain ⟨growth, grows, holds⟩ := gains walk
  rcases run : step walk with ⟨fault | value, reached⟩
  · rw [run] at grows holds
    rw [bind_of_error next run]
    exact ⟨growth, grows, stopped fault growth holds⟩
  · rw [run] at grows holds
    obtain ⟨more, grown, holdsNext⟩ := continued value reached
    rw [bind_of_ok next run]
    exact ⟨growth + more, grows.trans grown, joined value _ growth more holds holdsNext⟩

theorem Idle.gains_bind {α β : Type} {step : Check α} {next : α → Check β}
    {stated : Except Fault β → Growth → Prop} (idle : step.Idle)
    (stopped : ∀ fault, stated (.error fault) 0)
    (continued : ∀ value, (next value).Gains stated) : (step >>= next).Gains stated := by
  intro walk
  have kept := idle walk
  rcases run : step walk with ⟨fault | value, reached⟩
  · rw [run] at kept
    rw [bind_of_error next run, kept]
    exact ⟨0, .refl walk, stopped fault⟩
  · rw [run] at kept
    cases kept
    rw [bind_of_ok next run]
    exact continued value reached

private theorem idle_identifier (parent : Kind) (index : Nat) (child : Node) :
    (identifier parent index child).Idle := by
  intro walk
  rw [identifier]
  cases child.identifier? <;> rfl

private theorem idle_identifierAt (parent : Kind) (children : List Node) (index : Nat) :
    (identifierAt parent children index).Idle := by
  rw [identifierAt]
  cases children[index]? with
  | none => exact fun _ => rfl
  | some child => exact idle_identifier parent index child

/-- The accounts of the step are in order. -/
def Accounts {α : Type} (step : Check α) : Prop :=
  step.Gains Growth.Accounts

theorem Idle.accounts {α : Type} {step : Check α} (idle : step.Idle) : step.Accounts :=
  idle.gains Growth.accounts_zero

theorem Accounts.bind {α β : Type} {step : Check α} {next : α → Check β}
    (accounts : step.Accounts) (continued : ∀ value, (next value).Accounts) :
    (step >>= next).Accounts :=
  Gains.bind accounts continued (fun _ _ => Growth.Accounts.of_error)
    fun _ _ _ _ => Growth.Accounts.add

private theorem inherited_accounts : Inherited Accounts where
  value _ := Idle.accounts fun _ => rfl
  stop _ := Idle.accounts fun _ => rfl
  bind := Accounts.bind
  visited kind children walk := by
    refine ⟨_, emit_grows _ walk, Growth.Balanced.accounts ⟨rfl, rfl, rfl, rfl⟩ ?_ _⟩
    simp [Event.closes]
  counted counts _ none walk := by
    refine ⟨_, count_grows (fun _ => rfl) walk, Growth.Balanced.accounts ?_ (by simp) _⟩
    exact ⟨rfl, rfl, none.symm, none.symm⟩
  found name next absent _ present := by
    apply Accounts.bind (Idle.accounts fun _ => rfl)
    intro found
    cases found with
    | none => exact absent
    | some type => exact present type

/-! ## Declarations -/

private theorem accounts_announced (name : String) {type : Ty}
    (origin : type.origin = .declaration) :
    (emit (.declareVariable name type) >>= fun _ => declare name type).Accounts := by
  apply gains_emit_bind
  intro walk
  obtain ⟨growth, grows, ⟨fault, stopped, rfl⟩ | ⟨done, rfl⟩⟩ := gains_declare name type walk
  · rw [stopped]
    refine ⟨0, grows, by simp [Event.closes], by simp, ?_⟩
    rintro _ ⟨⟩
  · exact ⟨_, grows, (Growth.balanced_variable name origin).accounts (by simp [Event.closes]) _⟩

private theorem accounts_declareVariable (typeName : Option String) (children : List Node) :
    (declareVariable typeName children).Accounts := by
  have named := fun index => (idle_identifierAt .declaration children index).accounts
  have read : current.Accounts := Idle.accounts fun _ => rfl
  rw [declareVariable]
  split
  · apply (named 0).bind
    intro enumType
    apply (named 1).bind
    intro name
    apply read.bind
    intro session
    dsimp only
    split
    · exact accounts_announced name (session.symbols.declaredType_origin enumType)
    · exact inherited_accounts.stop _
  · apply (named 0).bind
    intro name
    apply read.bind
    intro session
    apply accounts_announced
    cases typeName with
    | none => rfl
    | some typeName => exact session.symbols.declaredType_origin typeName

/-- So many values of an enumeration are to be bound, one after the other. -/
def BindsValues (count : Nat) (outcome : Except Fault Unit) (growth : Growth) : Prop :=
  ∃ names : List String, growth = { bindings := names.map (·, .enumValue) } ∧
    names.length ≤ count ∧ (outcome = .ok () → names.length = count)

private theorem gains_declareValues (index : Nat) (children : List Node) :
    (declareValues index children).Gains (BindsValues children.length) := by
  have unbound (count : Nat) (fault : Fault) : BindsValues count (.error fault) 0 :=
    ⟨[], rfl, Nat.zero_le _, fun done => by cases done⟩
  induction children generalizing index with
  | nil =>
      rw [declareValues]
      exact Idle.gains (fun _ => rfl) fun _ => ⟨[], rfl, Nat.le_refl 0, fun _ => rfl⟩
  | cons child rest ih =>
      rw [declareValues]
      apply (idle_identifier .enumStmt index child).gains_bind (unbound _)
      intro name
      apply (gains_declare name .enumValue).bind fun _ => ih (index + 1)
      · rintro fault _ (⟨_, -, rfl⟩ | ⟨⟨⟩, -⟩)
        exact unbound _ fault
      · rintro _ outcome _ _ (⟨_, ⟨⟩, -⟩ | ⟨-, rfl⟩) ⟨names, rfl, most, all⟩
        exact ⟨name :: names, rfl, by simpa using most, by simpa using all⟩

private theorem accounts_declareEnum (children : List Node) : (declareEnum children).Accounts := by
  cases children with
  | nil => exact inherited_accounts.stop _
  | cons first values =>
      rw [declareEnum]
      apply (idle_identifier .enumStmt 0 first).accounts.bind
      intro typeName
      apply gains_count_bind fun metrics => metrics.addEnumValues_eq values.length
      apply gains_emit_bind
      apply (gains_declare typeName .enumType).bind fun _ => gains_declareValues 1 values
      · rintro fault _ (⟨_, -, rfl⟩ | ⟨⟨⟩, -⟩)
        exact ⟨by simp [Event.closes], by simp, fun _ done => by cases done⟩
      · rintro _ outcome _ _ (⟨_, ⟨⟩, -⟩ | ⟨-, rfl⟩) ⟨names, rfl, most, all⟩
        exact Growth.accounts_enum typeName most all

private theorem accounts_visit (node : Node) : (visit node).Accounts :=
  inherited_accounts.visit accounts_declareVariable accounts_declareEnum node

end Check

/-! ## Programs -/

/-- What the log of a run says at its end. -/
def Run.closing (run : Run) : List Event :=
  match run.outcome with
  | .ok metrics => [.wellTyped run.session.symbols.size metrics.vars metrics.operators]
  | .error _ => []

theorem Session.check_accounts (session : Session) (program : Node) :
    ∃ growth : Growth,
      session.symbols.Extends growth.bindings (session.check program).session.symbols ∧
      session.metrics.Increase growth.counts (session.check program).session.metrics ∧
      growth.Accounts (session.check program).outcome ∧
      (program.label = .program → (session.check program).events =
        .checking program.size :: (growth.events ++ (session.check program).closing)) := by
  have accounts (items : List Node) : ∃ growth,
      Walk.Grows ⟨session, [.checking (Node.mk .program items).size]⟩ growth
        (session.readItems items).2 ∧
      growth.Accounts (session.readItems items).1 :=
    Check.inherited_accounts.visitEach (fun item _ => Check.accounts_visit item) .plain .any [] _
  refine session.check_cases program ?_ ?_ ?_
  · intro node other
    exact ⟨0, .refl _, Metrics.increase_add _ 0, Growth.accounts_zero _,
      fun root => absurd root other⟩
  · intro items fault reached stopped
    obtain ⟨growth, grows, accounted⟩ := accounts items
    rw [stopped] at grows accounted
    have log : reached.log = _ := grows.log
    refine ⟨growth, grows.symbols, grows.increase, accounted.of_error, fun _ => ?_⟩
    simp [Walk.refuse, Run.closing, log]
  · intro items types reached done
    obtain ⟨growth, grows, accounted⟩ := accounts items
    rw [done] at grows accounted
    have log : reached.log = _ := grows.log
    refine ⟨growth, grows.symbols, increase_counted grows.increase, ?_, fun _ => ?_⟩
    · exact ⟨accounted.running, accounted.covered, fun _ _ => accounted.settled types rfl⟩
    · simp [Walk.accept, Run.closing, log, counted]

end TreeCheck
