import TreeCheck.Proofs.Splicing
import TreeCheck.Proofs.Words

/-!
# Tracking the walk with words

The walk with words does what the walk with numbers does, until a sum is too large for a word. In
particular it never takes one from nothing and never cuts a list behind its end: where it does
either, the list has been found to have a first element.
-/

set_option autoImplicit false

namespace TreeCheck

/-- The variables of the table, and what has been counted besides. -/
def Session.load (session : Session) : Nat :=
  session.symbols.variableCount + session.metrics.whiles + session.metrics.ifs +
    session.metrics.enumValues + session.metrics.operators

namespace Word

variable (trapping : Bool)

/-! ## Sums -/

/-- A sum of numbers is added up in words, unless it is too large and the machine traps. -/
private theorem bind_add {α : Type} (left right : Nat) (next : UInt64 → Option α) :
    (add trapping (.ofNat left) (.ofNat right)).bind next = next (.ofNat (left + right)) ∨
      trapping = true ∧ 2 ^ 64 ≤ left + right ∧
        (add trapping (.ofNat left) (.ofNat right)).bind next = none := by
  unfold add
  split
  · rename_i large
    have bound : 2 ^ 64 ≤ left % 2 ^ 64 + right % 2 ^ 64 := by simpa using large.2
    exact .inr ⟨large.1, by omega, rfl⟩
  · rw [UInt64.ofNat_add]
    exact .inl rfl

theorem Counters.add_ofMetrics (metrics : Metrics) {counts : Metrics} (none : counts.vars = 0) :
    (ofMetrics metrics).add trapping (ofMetrics counts) = some (ofMetrics (metrics + counts)) ∨
      trapping = true ∧ 2 ^ 64 ≤ (metrics + counts).whiles + (metrics + counts).ifs +
          (metrics + counts).enumValues + (metrics + counts).operators ∧
        (ofMetrics metrics).add trapping (ofMetrics counts) = .none := by
  simp only [Metrics.add_whiles, Metrics.add_ifs, Metrics.add_enumValues, Metrics.add_operators]
  unfold Counters.add
  dsimp only [ofMetrics, bind]
  obtain ⟨traps, large, stopped⟩ | whiles := (bind_add trapping metrics.whiles counts.whiles _).symm
  · exact .inr ⟨traps, by omega, stopped⟩
  rw [whiles]
  obtain ⟨traps, large, stopped⟩ | ifs := (bind_add trapping metrics.ifs counts.ifs _).symm
  · exact .inr ⟨traps, by omega, stopped⟩
  rw [ifs]
  obtain ⟨traps, large, stopped⟩ | values :=
    (bind_add trapping metrics.enumValues counts.enumValues _).symm
  · exact .inr ⟨traps, by omega, stopped⟩
  rw [values]
  obtain ⟨traps, large, stopped⟩ | operators :=
    (bind_add trapping metrics.operators counts.operators _).symm
  · exact .inr ⟨traps, by omega, stopped⟩
  rw [operators, Metrics.add_vars, none]
  exact .inl rfl

section

variable {α β : Type} {step : Step α} {state after : State}

theorem bind_of_ok {value : α} (next : α → Step β) (done : step state = (.ok value, after)) :
    (step >>= next) state = next value after := by
  change ExceptT.bindCont next (step state).1 (step state).2 = _
  rw [done]
  rfl

theorem bind_of_error {halt : Halt} (next : α → Step β)
    (stopped : step state = (.error halt, after)) :
    (step >>= next) state = (.error halt, after) := by
  change ExceptT.bindCont next (step state).1 (step state).2 = _
  rw [stopped]
  rfl

private theorem bind_of_overflow (next : α → Step β) (stopped : (step state).1 = .error .overflow) :
    ((step >>= next) state).1 = .error .overflow := by
  rcases run : step state with ⟨outcome, after⟩
  rw [run] at stopped
  obtain rfl : outcome = .error .overflow := stopped
  rw [bind_of_error next run]

end

/-! ## Tracking a walk -/

/-- What a step of the walk gives, with the counters in words. -/
def narrow {α : Type} (result : Except Fault α × Walk) : Except Halt α × State :=
  (result.1.mapError .fault, .ofSession result.2.session)

/-- The step of the machine does the same as the step of the walk, unless the machine traps at
counters that are too large. -/
structure Tracks {α : Type} (step : Step α) (exact : Check α) : Prop where
  grows : ∀ walk : Walk, walk.session.load ≤ (exact walk).2.session.load
  follows : ∀ walk : Walk, step (.ofSession walk.session) = narrow (exact walk) ∨
    trapping = true ∧ 2 ^ 64 ≤ (exact walk).2.session.load ∧
      (step (.ofSession walk.session)).1 = .error .overflow

namespace Tracks

variable {trapping} {α β : Type}

private theorem of_idle {step : Step α} {exact : Check α} (idle : ∀ walk, (exact walk).2 = walk)
    (same : ∀ walk, step (.ofSession walk.session) = narrow (exact walk)) :
    Tracks trapping step exact where
  grows walk := Nat.le_of_eq (by rw [idle])
  follows walk := .inl (same walk)

theorem value (value : α) : Tracks trapping (pure value) (pure value) :=
  of_idle (fun _ => rfl) fun _ => rfl

theorem reject (broken : Violation) :
    Tracks trapping (Word.reject broken : Step α) (Check.reject broken) :=
  of_idle (fun _ => rfl) fun _ => rfl

theorem malformed (shape : Malformed) :
    Tracks trapping (Word.malformed shape : Step α) (Check.malformed shape) :=
  of_idle (fun _ => rfl) fun _ => rfl

theorem lookup (name : String) : Tracks trapping (Word.lookup name) (Check.lookup name) :=
  of_idle (fun _ => rfl) fun _ => rfl

theorem declare (name : String) (type : Ty) :
    Tracks trapping (Word.declare name type) (Check.declare name type) := by
  constructor
  · intro walk
    rcases Check.declare_cases name type walk with ⟨-, stopped⟩ | ⟨symbols, extended, declared⟩
    · exact Nat.le_of_eq (by rw [stopped])
    · rw [declared]
      simp only [Session.load, extended.variableCount_eq]
      omega
  · intro walk
    have symbols : (State.ofSession walk.session).symbols = walk.session.symbols := rfl
    rw [Word.declare, Check.declare, symbols]
    left
    cases walk.session.symbols.declare name type <;> rfl

theorem count {amount : Counters} {counts : Metrics} {update : Metrics → Metrics}
    (adds : ∀ metrics, update metrics = metrics + counts) (none : counts.vars = 0)
    (same : amount = .ofMetrics counts) :
    Tracks trapping (Word.count trapping amount) (Check.count update) := by
  subst same
  have counted (walk : Walk) : (Check.count update walk).2.session.metrics =
      walk.session.metrics + counts := adds _
  have symbols (walk : Walk) : (Check.count update walk).2.session.symbols =
      walk.session.symbols := rfl
  constructor
  · intro walk
    simp only [Session.load, counted, symbols, Metrics.add_whiles, Metrics.add_ifs,
      Metrics.add_enumValues, Metrics.add_operators]
    omega
  · intro walk
    have counters : (State.ofSession walk.session).counters = .ofMetrics walk.session.metrics := rfl
    rw [Word.count, counters]
    obtain added | ⟨traps, large, stopped⟩ :=
      Counters.add_ofMetrics trapping walk.session.metrics none
    · rw [added]
      left
      simp only [narrow, Check.count, adds]
      rfl
    · rw [stopped]
      right
      refine ⟨traps, ?_, rfl⟩
      rw [Session.load, counted]
      omega

theorem bind {step : Step α} {exact : Check α} {next : α → Step β} {exactNext : α → Check β}
    (first : Tracks trapping step exact)
    (second : ∀ value, Tracks trapping (next value) (exactNext value)) :
    Tracks trapping (step >>= next) (exact >>= exactNext) := by
  constructor
  · intro walk
    have grown := first.grows walk
    rcases run : exact walk with ⟨fault | value, reached⟩
    · rw [Check.bind_of_error exactNext run]
      rw [run] at grown
      exact grown
    · rw [Check.bind_of_ok exactNext run]
      rw [run] at grown
      exact Nat.le_trans grown ((second value).grows reached)
  · intro walk
    rcases run : exact walk with ⟨fault | value, reached⟩
    · rw [Check.bind_of_error exactNext run]
      obtain same | ⟨traps, large, stopped⟩ := first.follows walk
      · rw [run] at same
        exact .inl (bind_of_error next same)
      · rw [run] at large
        exact .inr ⟨traps, large, bind_of_overflow next stopped⟩
    · rw [Check.bind_of_ok exactNext run]
      obtain same | ⟨traps, large, stopped⟩ := first.follows walk
      · rw [run] at same
        rw [bind_of_ok next same]
        exact (second value).follows reached
      · rw [run] at large
        exact .inr ⟨traps, Nat.le_trans large ((second value).grows reached),
          bind_of_overflow next stopped⟩

/-- A machine reports nothing. -/
theorem emit_bind {step : Step α} {next : Unit → Check α} (event : Event)
    (tracked : Tracks trapping step (next ())) :
    Tracks trapping step (Check.emit event >>= next) where
  grows walk := tracked.grows (Check.emit event walk).2
  follows walk := tracked.follows (Check.emit event walk).2

theorem current_bind {next : SymbolTable → Step α} {exactNext : Session → Check α}
    (tracked : ∀ session : Session, Tracks trapping (next session.symbols) (exactNext session)) :
    Tracks trapping (table >>= next) (Check.current >>= exactNext) where
  grows walk := (tracked walk.session).grows walk
  follows walk := (tracked walk.session).follows walk

theorem require {condition : Prop} [Decidable condition] (value : α) (broken : Violation) :
    Tracks trapping (if condition then pure value else Word.reject broken)
      (if condition then pure value else Check.reject broken) := by
  split
  · exact .value value
  · exact .reject broken

theorem identifier {parent : Kind} {children : List Node} {index : Nat} {child : Node}
    (found : children[index]? = some child) :
    Tracks trapping (Word.identifierAt parent children index)
      (Check.identifier parent index child) := by
  rw [Word.identifierAt, found, Check.identifier]
  cases named : child.identifier? with
  | none =>
      simp only [named]
      exact .malformed _
  | some name =>
      simp only [named]
      exact .value name

theorem identifierAt (parent : Kind) (children : List Node) (index : Nat) :
    Tracks trapping (Word.identifierAt parent children index)
      (Check.identifierAt parent children index) := by
  cases found : children[index]? with
  | none =>
      rw [Word.identifierAt, Check.identifierAt, found]
      exact .malformed _
  | some child =>
      rw [Check.identifierAt, found]
      exact .identifier found

theorem resolve (name : String) : Tracks trapping (Word.resolve name) (Check.resolve name) := by
  apply (Tracks.lookup name).bind
  intro found
  cases found with
  | none => exact .reject _
  | some type => exact .value type

theorem caseLabel (subject : Ty) (children : List Node) :
    Tracks trapping (Word.caseLabel subject children) (Check.caseLabel subject children) := by
  cases children with
  | nil => exact .malformed _
  | cons label body =>
      rcases label with ⟨label, below⟩
      cases label with
      | identifier name => exact (Tracks.lookup name).bind fun _ => .require _ _
      | intValue value => exact .require _ _
      | _ => exact .malformed _

/-! ## Declarations -/

theorem declareVariable (typeName : Option String) (children : List Node) :
    Tracks trapping (Word.declareVariable typeName children)
      (Check.declareVariable typeName children) := by
  rw [Word.declareVariable, Check.declareVariable]
  split
  · apply (Tracks.identifierAt _ _ _).bind
    intro enumType
    apply (Tracks.identifierAt _ _ _).bind
    intro name
    apply Tracks.current_bind
    intro session
    dsimp only
    split
    · exact .emit_bind _ (.declare _ _)
    · exact .reject _
  · apply (Tracks.identifierAt _ _ _).bind
    intro name
    apply Tracks.current_bind
    intro session
    exact .emit_bind _ (.declare _ _)

theorem declareValues {children values : List Node} {index : Nat}
    (rest : children.drop index = values) :
    Tracks trapping (Word.declareValues children index values.length)
      (Check.declareValues index values) := by
  induction values generalizing index with
  | nil => exact .value ()
  | cons child values ih =>
      have found : children[index]? = some child := by
        rw [← List.head?_drop, rest]
        rfl
      have next : children.drop (index + 1) = values := by
        rw [← List.tail_drop, rest]
        rfl
      rw [Check.declareValues]
      apply (Tracks.identifier found).bind
      intro name
      exact (Tracks.declare name .enumValue).bind fun _ => ih next

theorem declareEnum (children : List Node) :
    Tracks trapping (Word.declareEnum trapping children) (Check.declareEnum children) := by
  cases children with
  | nil => exact .malformed _
  | cons first values =>
      have less : lengthLessOne (first :: values) = pure (UInt64.ofNat values.length) := by
        rw [lengthLessOne, if_neg (by simp), List.length_cons, UInt64.ofNat_add]
        exact congrArg pure (UInt64.add_sub_cancel _ _)
      rw [Word.declareEnum, Check.declareEnum, less]
      apply (Tracks.identifier rfl).bind
      intro typeName
      apply (Tracks.count (fun metrics => metrics.addEnumValues_eq values.length) rfl rfl).bind
      intro _
      apply Tracks.emit_bind
      exact (Tracks.declare typeName .enumType).bind fun _ => .declareValues rfl

/-! ## The walk -/

theorem visitAt {children : List Node} {child : Node} {places : Nat}
    (found : children[places]? = some child)
    (visited : Tracks trapping (Word.visit trapping child) (Check.visit child)) (parent : Kind)
    (index : Nat) :
    Tracks trapping (Word.visitAt trapping parent index places children) (Check.visit child) := by
  induction children generalizing places with
  | nil => simp at found
  | cons first rest ih =>
      cases places with
      | zero =>
          obtain rfl : first = child := by simpa using found
          rw [Word.visitAt]
          exact visited
      | succ places =>
          rw [Word.visitAt]
          exact ih (by simpa using found)

theorem read {child : Node}
    (visited : Tracks trapping (Word.visit trapping child) (Check.visit child))
    (position : Position) :
    Tracks trapping (Word.read trapping position child) (Check.read position child) := by
  rcases child with ⟨label, below⟩
  cases position with
  | plain => exact visited
  | value =>
      cases label with
      | identifier name => exact .resolve name
      | _ => exact visited
  | arm subject =>
      cases label with
      | caseStmt => exact .caseLabel subject below
      | _ => exact visited

theorem visitFrom {children : List Node}
    (visited : ∀ child ∈ children,
      Tracks trapping (Word.visit trapping child) (Check.visit child))
    (position : Position) (admitted : Admission) (earlier : List Ty) (start : Nat) :
    Tracks trapping (Word.visitFrom trapping position admitted earlier start children)
      (Check.visitEach position admitted earlier (children.drop start)) := by
  induction children generalizing earlier start with
  | nil =>
      rw [Word.visitFrom, List.drop_nil, Check.visitEach_nil]
      exact .value earlier
  | cons child rest ih =>
      obtain ⟨first, others⟩ := List.forall_mem_cons.mp visited
      cases start with
      | succ start =>
          rw [Word.visitFrom, List.drop_succ_cons]
          exact ih others earlier start
      | zero =>
          rw [visitFrom_cons, List.drop_zero, Check.visitEach_cons]
          apply (Tracks.read first position).bind
          intro type
          split
          · exact ih others (earlier ++ [type]) 0
          · exact .reject _

section

variable {children : List Node}
  (visited : ∀ child ∈ children, Tracks trapping (Word.visit trapping child) (Check.visit child))

include visited

theorem visitEach (position : Position) (admitted : Admission) :
    Tracks trapping (Word.visitFrom trapping position admitted [] 0 children)
      (Check.visitEach position admitted [] children) :=
  Tracks.visitFrom visited position admitted [] 0

theorem conditional {kind : Kind} :
    Tracks trapping
      (do
        let condition ← Word.visitAt trapping kind 0 0 children
        cut 1 children
        let _ ← Word.visitFrom trapping .plain .any [] 1 children
        if condition = .bool then return .unknown
        else Word.reject .invalidConditionType : Step Ty)
      (if children.isEmpty then Check.malformed (.missingChild kind 0) else do
        let types ← Check.visitEach .plain .any [] children
        if types.head? = some .bool then return .unknown
        else Check.reject .invalidConditionType : Check Ty) := by
  cases children with
  | nil =>
      rw [Word.visitAt]
      exact .malformed _
  | cons first rest =>
      have bodies := Tracks.visitFrom visited .plain .any [] 1
      have passed : cut 1 (first :: rest) = pure () := if_pos (by simp)
      rw [passed, List.isEmpty_cons, if_neg Bool.false_ne_true, Check.visitEach_cons, bind_assoc]
      apply (Tracks.visitAt rfl (visited first List.mem_cons_self) kind 0).bind
      intro condition
      have judged := Check.visitEach_any_bind .plain [condition] rest fun types =>
        if types.head? = some .bool then (return .unknown : Check Ty)
        else Check.reject .invalidConditionType
      simp only [Admission.any, if_true, List.nil_append]
      rw [judged]
      apply bodies.bind
      intro types
      simp only [List.singleton_append, List.head?_cons, Option.some.injEq]
      exact .require _ _

theorem assignStmt :
    Tracks trapping (Word.visit trapping ⟨.assignStmt, children⟩)
      (Check.visit ⟨.assignStmt, children⟩) := by
  rw [Word.visit, Check.visit_assignStmt]
  apply Tracks.emit_bind
  apply (Tracks.identifierAt _ _ _).bind
  intro name
  apply (Tracks.lookup name).bind
  intro target
  rw [Check.assignValue]
  cases found : children[1]? with
  | none =>
      rw [visitAt_of_missing trapping _ _ found]
      exact .malformed _
  | some value =>
      have member := List.mem_of_getElem? found
      exact (Tracks.visitAt found (visited value member) _ _).bind fun type => .require _ _

theorem switchStmt :
    Tracks trapping (Word.visit trapping ⟨.switchStmt, children⟩)
      (Check.visit ⟨.switchStmt, children⟩) := by
  cases children with
  | nil =>
      rw [Word.visit, Check.visit]
      exact .emit_bind _ (.malformed _)
  | cons subject arms =>
      have passed : cut 1 (subject :: arms) = pure () := if_pos (by simp)
      rw [Word.visit, Check.visit_switchStmt]
      apply Tracks.emit_bind
      apply (Tracks.identifierAt _ _ _).bind
      intro name
      apply (Tracks.lookup name).bind
      intro found
      rw [Check.switchArms]
      cases found.filter Ty.isSwitchable with
      | none => exact .reject _
      | some type =>
          rw [passed]
          exact (Tracks.visitFrom visited (.arm type) .any [] 1).bind fun _ => .value _

theorem comparison (operator : Option Comparison) :
    Tracks trapping (Word.visit trapping ⟨.compExpr operator, children⟩)
      (Check.visit ⟨.compExpr operator, children⟩) := by
  rw [Word.visit, Check.visit]
  apply Tracks.emit_bind
  apply (Tracks.visitEach visited .plain .any).bind
  intro types
  cases types with
  | nil => exact .value _
  | cons first rest =>
      cases rest with
      | nil => exact .value first
      | cons second rest =>
          exact (Tracks.count (fun metrics => metrics.addOperators_eq _) rfl rfl).bind fun _ =>
            .require _ _

theorem arithmetic {label : Label} (sum : label = .addExpr ∨ label = .mulExpr) :
    Tracks trapping (Word.visit trapping ⟨label, children⟩) (Check.visit ⟨label, children⟩) := by
  obtain rfl | rfl := sum
  all_goals
    rw [Word.visit, Check.visit]
    apply Tracks.emit_bind
    split
    · exact (Tracks.visitEach visited .plain .any).bind fun _ => .value _
    · apply (Tracks.count (fun metrics => metrics.addOperators_eq 1) rfl rfl).bind
      intro _
      exact (Tracks.visitEach visited .plain .numbers).bind fun _ => .value _

theorem negation (tokens : List String) :
    Tracks trapping (Word.visit trapping ⟨.notExpr tokens, children⟩)
      (Check.visit ⟨.notExpr tokens, children⟩) := by
  cases tokens with
  | nil =>
      rw [Word.visit, Check.visit.eq_def]
      apply Tracks.emit_bind
      exact (Tracks.visitEach visited .plain .any).bind fun _ => .value _
  | cons token tokens =>
      cases children with
      | nil =>
          rw [Word.visit, Check.visit]
          apply Tracks.emit_bind
          apply (Tracks.count (fun metrics => metrics.addOperators_eq 1) rfl rfl).bind
          intro _
          rw [Word.visitAt]
          exact .malformed _
      | cons operand rest =>
          rw [Word.visit, Check.visit]
          apply Tracks.emit_bind
          apply (Tracks.count (fun metrics => metrics.addOperators_eq 1) rfl rfl).bind
          intro _
          exact (Tracks.visitAt rfl (visited operand List.mem_cons_self) _ _).bind
            fun type => .require _ _

end

private theorem of_children (label : Label) (children : List Node)
    (visited : ∀ child ∈ children,
      Tracks trapping (Word.visit trapping child) (Check.visit child)) :
    Tracks trapping (Word.visit trapping ⟨label, children⟩) (Check.visit ⟨label, children⟩) := by
  cases label with
  | program | caseStmt =>
      rw [Word.visit, Check.visit]
      exact .emit_bind _ (.malformed _)
  | declaration typeName =>
      rw [Word.visit, Check.visit]
      exact .emit_bind _ ((Tracks.declareVariable typeName children).bind fun _ => .value _)
  | enumStmt =>
      rw [Word.visit, Check.visit]
      exact .emit_bind _ ((Tracks.declareEnum children).bind fun _ => .value _)
  | block | stmt | expr =>
      rw [Word.visit, Check.visit]
      exact .emit_bind _ ((Tracks.visitEach visited .plain .any).bind fun _ => .value _)
  | genValue =>
      rw [Word.visit, Check.visit]
      exact .emit_bind _ ((Tracks.visitEach visited .value .any).bind fun _ => .value _)
  | ifStmt =>
      rw [Word.visit, Check.visit]
      apply Tracks.emit_bind
      exact (Tracks.count Metrics.addIf_eq rfl rfl).bind fun _ => .conditional visited
  | whileStmt =>
      rw [Word.visit, Check.visit]
      apply Tracks.emit_bind
      exact (Tracks.count Metrics.addWhile_eq rfl rfl).bind fun _ => .conditional visited
  | assignStmt => exact .assignStmt visited
  | switchStmt => exact .switchStmt visited
  | compExpr operator => exact .comparison visited operator
  | addExpr => exact .arithmetic visited (.inl rfl)
  | mulExpr => exact .arithmetic visited (.inr rfl)
  | boolExpr tokens =>
      rw [Word.visit, Check.visit]
      apply Tracks.emit_bind
      apply (Tracks.visitEach visited .plain .alike).bind
      intro types
      cases tokens with
      | nil => exact .value _
      | cons token tokens =>
          exact (Tracks.count (fun metrics => metrics.addOperators_eq 1) rfl rfl).bind
            fun _ => .value _
  | notExpr tokens => exact .negation visited tokens
  | unaExpr tokens =>
      rw [Word.visit, Check.visit]
      apply Tracks.emit_bind
      have operands := (Tracks.visitEach visited .plain .any).bind fun types =>
        Tracks.value (Ty.lastKnown types)
      cases tokens with
      | nil => exact operands
      | cons token tokens =>
          exact (Tracks.count (fun metrics => metrics.addOperators_eq 1) rfl rfl).bind
            fun _ => operands
  | boolValue _ | intValue _ | identifier _ =>
      rw [Word.visit, Check.visit]
      exact .emit_bind _ (.value _)

theorem visit (node : Node) :
    Tracks trapping (Word.visit trapping node) (Check.visit node) :=
  Node.childrenInduction of_children node

end Tracks

/-! ## Programs -/

/-- What the check of a program gives, with the counters in words. -/
def Run.ofExact (run : TreeCheck.Run) : Run :=
  ⟨Counters.ofMetrics <$> run.outcome.mapError .fault, .ofSession run.session⟩

namespace State

def readItems (state : State) (items : List Node) : Except Halt (List Ty) × State :=
  visitFrom trapping .plain .any [] 0 items state

variable {trapping} {state after : State} {items : List Node}

theorem check_of_label_ne (state : State) {program : Node} (other : program.label ≠ .program) :
    state.check trapping program = ⟨.error (.fault (.malformed (.root program.kind))), state⟩ := by
  rcases program with ⟨label, items⟩
  cases label with
  | program => exact absurd rfl other
  | _ => rfl

theorem check_of_error {halt : Halt}
    (stopped : state.readItems trapping items = (.error halt, after)) :
    state.check trapping ⟨.program, items⟩ = ⟨.error halt, after⟩ := by
  have run : Word.program trapping ⟨.program, items⟩ state = (.error halt, after) :=
    bind_of_error _ stopped
  rw [check, run]

theorem check_of_ok {types : List Ty}
    (done : state.readItems trapping items = (.ok types, after)) :
    state.check trapping ⟨.program, items⟩ =
      ⟨(countVariables after).1, (countVariables after).2⟩ := by
  have run : Word.program trapping ⟨.program, items⟩ state = countVariables after :=
    bind_of_ok _ done
  rw [check, run]
  rfl

private theorem check_of_overflow
    (stopped : (state.readItems trapping items).1 = .error .overflow) :
    (state.check trapping ⟨.program, items⟩).outcome = .error .overflow :=
  bind_of_overflow (fun _ => countVariables) stopped

private theorem readItems_ofSession (trapping : Bool) (session : Session) (items : List Node) :
    (ofSession session).readItems trapping items = narrow (session.readItems items) ∨
      trapping = true ∧ 2 ^ 64 ≤ (session.readItems items).2.session.load ∧
        ((ofSession session).readItems trapping items).1 = .error .overflow := by
  have tracked : Tracks trapping _ (Check.visitEach .plain .any [] items) :=
    .visitEach (fun item _ => Tracks.visit item) .plain .any
  exact tracked.follows ⟨session, [.checking (Node.mk .program items).size]⟩

theorem check_ofSession (trapping : Bool) (session : Session) (program : Node) :
    (ofSession session).check trapping program = .ofExact (session.check program) ∨
      trapping = true ∧ 2 ^ 64 ≤ (session.check program).session.load ∧
        ((ofSession session).check trapping program).outcome = .error .overflow := by
  refine session.check_cases program ?_ ?_ ?_
  · intro node other
    rw [check_of_label_ne _ other]
    exact .inl rfl
  · intro items fault reached stopped
    have followed := readItems_ofSession trapping session items
    rw [stopped] at followed
    obtain same | ⟨traps, large, halted⟩ := followed
    · rw [check_of_error same]
      exact .inl rfl
    · exact .inr ⟨traps, large, check_of_overflow halted⟩
  · intro items types reached done
    have followed := readItems_ofSession trapping session items
    rw [done] at followed
    obtain same | ⟨traps, large, halted⟩ := followed
    · rw [check_of_ok same]
      exact .inl rfl
    · exact .inr ⟨traps, large, check_of_overflow halted⟩

/-- From any state, only a fault of the program or a sum that is too large ends a check. -/
theorem fault_or_overflow {program : Node} {halt : Halt}
    (halted : (state.check trapping program).outcome = .error halt) :
    (∃ fault, halt = .fault fault) ∨ halt = .overflow := by
  rw [← ofSession_toSession state] at halted
  obtain same | ⟨-, -, stopped⟩ := check_ofSession trapping state.toSession program
  · rw [same, Run.ofExact] at halted
    cases outcome : (state.toSession.check program).outcome with
    | ok metrics =>
        rw [outcome] at halted
        cases halted
    | error fault =>
        rw [outcome] at halted
        cases halted
        exact .inl ⟨fault, rfl⟩
  · rw [stopped] at halted
    cases halted
    exact .inr rfl

end State

end Word

end TreeCheck
