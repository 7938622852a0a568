import TreeCheck.Proofs.Gathering
import TreeCheck.Proofs.Realization

/-!
# The walk decides the type system

Every rule of the walk realizes the typing rules of its kind of node, given that the walks of the
children do. So a walk accepts exactly the trees that are well typed, and a session exactly the
programs.
-/

set_option autoImplicit false

namespace TreeCheck

namespace Check

/-- The walk of a tree realizes the typing rules. -/
private def Decides (node : Node) : Prop :=
  (visit node).Realizes fun table type after => HasType table node type after

private theorem realizes_read {child : Node} (decided : Decides child) (position : Position) :
    (read position child).Realizes fun table type after =>
      HasTypes position table [child] [type] after := by
  refine read_cases position child (fun walks => ?_) (fun name below => ?_)
    fun subject below => ?_
  · rw [read_of_walks walks]
    exact decided.congr fun table type after => (hasTypes_walked_iff walks).symm
  · exact (realizes_resolve name).congr fun table type after => hasTypes_value_iff.symm
  · exact realizes_caseLabel subject below

private theorem realizes_visitEach {children : List Node}
    (decided : ∀ child ∈ children, Decides child) (position : Position) (admitted : Admission)
    (earlier : List Ty) :
    (visitEach position admitted earlier children).Realizes fun table types after =>
      ∃ own, types = earlier ++ own ∧ HasTypes position table children own after ∧
        admitted.AdmitsAll earlier own := by
  induction children generalizing earlier with
  | nil =>
      rw [visitEach_nil]
      refine (realizes_pure earlier).congr fun table types after => ?_
      constructor
      · rintro ⟨rfl, rfl⟩
        exact ⟨[], (List.append_nil _).symm, .nil, trivial⟩
      · rintro ⟨own, rfl, typed, -⟩
        cases typed
        exact ⟨List.append_nil _, rfl⟩
  | cons child rest ih =>
      obtain ⟨first, others⟩ := List.forall_mem_cons.mp decided
      rw [visitEach_cons]
      refine ((realizes_read first position).bind fun type =>
        (ih others (earlier ++ [type])).guard _).congr fun table types after => ?_
      constructor
      · rintro ⟨type, middle, typed, accepted, own, rfl, typedRest, acceptedRest⟩
        exact ⟨type :: own, by simp, hasTypes_cons_iff.mpr ⟨_, _, _, rfl, typed, typedRest⟩,
          accepted, acceptedRest⟩
      · rintro ⟨own, rfl, typed, accepted⟩
        obtain ⟨type, later, middle, rfl, typed, typedRest⟩ := hasTypes_cons_iff.mp typed
        exact ⟨type, middle, typed, accepted.1, later, by simp, typedRest, accepted.2⟩

/-- The children of a rule that asks nothing of them while it reads them. -/
private theorem realizes_visitAll {children : List Node}
    (decided : ∀ child ∈ children, Decides child) (position : Position) :
    (visitEach position .any [] children).Realizes fun table types after =>
      HasTypes position table children types after := by
  refine (realizes_visitEach decided position .any []).congr fun table types after => ?_
  constructor
  · rintro ⟨own, rfl, typed, -⟩
    exact typed
  · intro typed
    exact ⟨types, rfl, typed, Admission.admitsAll_any [] types⟩

private theorem realizes_judge (gathering : Gathering) (types : List Ty) :
    (judge gathering types).Realizes fun table type after =>
      gathering.conclude types = some type ∧ after = table := by
  cases concluded : gathering.conclude types with
  | none =>
      rw [judge_of_none concluded]
      exact Realizes.count_bind _ ((realizes_fail _).congr (by simp))
  | some type =>
      rw [judge_of_some concluded]
      exact Realizes.count_bind _ ((realizes_pure type).congr (by simp [eq_comm]))

end Check

/-! ## Typing rules as plans -/

namespace Gathering

/-- The children that a plan reads are well typed, and the plan gives their parent this type. -/
private def Types (gathering : Gathering) (table : SymbolTable) (children : List Node) (type : Ty)
    (after : SymbolTable) : Prop :=
  (gathering.needsChild = true → children ≠ []) ∧
    ∃ types, HasTypes gathering.position table (gathering.operands children) types after ∧
      gathering.admitted.AdmitsAll [] types ∧ gathering.conclude types = some type

section

variable {gathering : Gathering} {table after : SymbolTable} {children : List Node} {type : Ty}

private theorem types_iff (optional : gathering.needsChild = false)
    (all : gathering.onlyFirst = false) :
    gathering.Types table children type after ↔
      ∃ types, HasTypes gathering.position table children types after ∧
        gathering.admitted.AdmitsAll [] types ∧ gathering.conclude types = some type := by
  rw [Types, operands, optional, all, if_neg Bool.false_ne_true]
  exact and_iff_right fun needed => absurd needed Bool.false_ne_true

private theorem types_lastKnown_iff (optional : gathering.needsChild = false)
    (all : gathering.onlyFirst = false) (free : gathering.admitted = .any)
    (passed : gathering.conclude = fun types => some (Ty.lastKnown types)) :
    gathering.Types table children type after ↔
      ∃ types, HasTypes gathering.position table children types after ∧
        Ty.IsLastKnown types type := by
  rw [types_iff optional all, free, passed]
  refine exists_congr fun types => and_congr_right fun _ => ?_
  rw [and_iff_right (Admission.admitsAll_any [] types), Option.some_inj, Ty.isLastKnown_iff,
    eq_comm]

private theorem types_shared_iff (optional : gathering.needsChild = false)
    (all : gathering.onlyFirst = false) (alike : gathering.admitted = .alike) :
    gathering.Types table children type after ↔
      ∃ types, HasTypes gathering.position table children types after ∧
        Ty.IsShared types (Ty.firstKnown types) ∧ gathering.conclude types = some type := by
  rw [types_iff optional all, alike]
  refine exists_congr fun types => and_congr_right fun _ => and_congr_left fun _ => ?_
  rw [Ty.isShared_iff, and_iff_left rfl]

private theorem types_conditional_iff :
    conditional.Types table children type after ↔
      ∃ condition bodies middle types, children = condition :: bodies ∧
        HasType table condition .bool middle ∧ HasTypes .plain middle bodies types after ∧
        type = .unknown := by
  constructor
  · rintro ⟨needed, types, typed, -, concluded⟩
    obtain ⟨condition, bodies, rfl⟩ := List.exists_cons_of_ne_nil (needed rfl)
    obtain ⟨first, later, middle, rfl, typed, others⟩ := hasTypes_cons_iff.mp typed
    obtain ⟨bool, ⟨⟩⟩ := Option.ite_none_right_eq_some.mp concluded
    obtain rfl : first = .bool := by simpa using bool
    exact ⟨condition, bodies, middle, later, rfl, (hasTypes_walked_iff rfl).mp typed, others, rfl⟩
  · rintro ⟨condition, bodies, middle, types, rfl, typed, others, rfl⟩
    exact ⟨fun _ => List.cons_ne_nil _ _, .bool :: types, .walked rfl typed others,
      Admission.admitsAll_any _ _, rfl⟩

private theorem types_negation_iff :
    negation.Types table children type after ↔
      ∃ operand rest, children = operand :: rest ∧ HasType table operand .bool after ∧
        type = .bool := by
  constructor
  · rintro ⟨needed, types, typed, -, concluded⟩
    obtain ⟨operand, rest, rfl⟩ := List.exists_cons_of_ne_nil (needed rfl)
    obtain ⟨rfl, ⟨⟩⟩ := Option.ite_none_right_eq_some.mp concluded
    exact ⟨operand, rest, rfl, (hasTypes_walked_iff rfl).mp typed, rfl⟩
  · rintro ⟨operand, rest, rfl, typed, rfl⟩
    exact ⟨fun _ => List.cons_ne_nil _ _, [.bool], .walked rfl typed .nil,
      Admission.admitsAll_any _ _, rfl⟩

private theorem types_comparison_iff (operator : Option Comparison) :
    (comparison operator).Types table children type after ↔
      ∃ types, HasTypes .plain table children types after ∧
        Comparison.Joins operator types type := by
  rw [types_iff rfl rfl]
  refine exists_congr fun types => and_congr_right fun _ =>
    (and_iff_right (Admission.admitsAll_any [] types)).trans ?_
  match types with
  | [] => rw [Comparison.joins_nil_iff, comparison, Option.some_inj, eq_comm]
  | [operand] => rw [Comparison.joins_singleton_iff, comparison, Option.some_inj, eq_comm]
  | first :: second :: rest =>
      rw [Comparison.joins_several_iff, comparison, Option.ite_none_right_eq_some, Option.some_inj,
        @eq_comm _ Ty.bool]

private theorem types_sum_iff
    (planned : Label.addExpr.gathering? children.length = some gathering) :
    gathering.Types table children type after ↔
      ∃ types, HasTypes .plain table children types after ∧ Ty.IsArithmetic types type := by
  cases planned
  split
  · rename_i one
    refine (types_lastKnown_iff rfl rfl rfl rfl).trans
      (exists_congr fun types => and_congr_right fun typed => ?_)
    rw [Ty.isArithmetic_single_iff (typed.length_eq ▸ one), Ty.isLastKnown_iff]
  · rename_i several
    refine (types_iff rfl rfl).trans
      (exists_congr fun types => and_congr_right fun typed => ?_)
    rw [Ty.isArithmetic_several_iff (typed.length_eq ▸ several), arithmetic, Option.some_inj,
      Admission.admitsAll_numbers_iff, eq_comm]

private theorem types_iff_boolExpr {tokens : List String}
    (planned : (Label.boolExpr tokens).gathering? children.length = some gathering) :
    gathering.Types table children type after ↔
      HasType table ⟨.boolExpr tokens, children⟩ type after := by
  have chained : gathering.Types table children type after ↔
      ∃ types, HasTypes .plain table children types after ∧
        Ty.IsShared types (Ty.firstKnown types) ∧
        type = if tokens = [] then Ty.firstKnown types else .bool := by
    cases tokens <;> cases planned <;>
      refine (types_shared_iff rfl rfl rfl).trans
        (exists_congr fun types => and_congr_right fun _ => and_congr_right fun _ => ?_)
    · rw [if_pos rfl, Option.some_inj, eq_comm]
    · rw [if_neg (List.cons_ne_nil _ _), connective, Option.some_inj, eq_comm]
  refine chained.trans ⟨?_, fun typed => ?_⟩
  · rintro ⟨types, typed, shared, rfl⟩
    exact .boolExpr typed shared
  · cases typed with
    | boolExpr typed shared =>
        obtain ⟨-, rfl⟩ := Ty.isShared_iff.mp shared
        exact ⟨_, typed, shared, rfl⟩

private theorem types_iff_notExpr {tokens : List String}
    (planned : (Label.notExpr tokens).gathering? children.length = some gathering) :
    gathering.Types table children type after ↔
      HasType table ⟨.notExpr tokens, children⟩ type after := by
  cases tokens with
  | nil =>
      cases planned
      refine (types_lastKnown_iff rfl rfl rfl rfl).trans ⟨?_, fun typed => ?_⟩
      · rintro ⟨types, typed, last⟩
        exact .notExpr typed last
      · cases typed with
        | notExpr typed last => exact ⟨_, typed, last⟩
        | negation tokens => exact absurd rfl tokens
  | cons token tokens =>
      cases planned
      refine types_negation_iff.trans ⟨?_, fun typed => ?_⟩
      · rintro ⟨operand, rest, rfl, typed, rfl⟩
        exact .negation (List.cons_ne_nil _ _) typed
      · cases typed with
        | negation _ typed => exact ⟨_, _, rfl, typed, rfl⟩

/-- The typing rules of a label that has a plan are what the plan says. -/
private theorem types_iff_hasType {label : Label}
    (planned : label.gathering? children.length = some gathering) :
    gathering.Types table children type after ↔ HasType table ⟨label, children⟩ type after := by
  cases label with
  | block | stmt | expr | genValue =>
      cases planned
      refine (types_lastKnown_iff rfl rfl rfl rfl).trans ⟨?_, fun typed => ?_⟩
      · rintro ⟨types, typed, last⟩
        constructor
        · exact typed
        · exact last
      · cases typed
        next last typed => exact ⟨_, typed, last⟩
  | unaExpr tokens =>
      have passing : gathering.Types table children type after ↔
          ∃ types, HasTypes .plain table children types after ∧ Ty.IsLastKnown types type := by
        cases tokens <;> cases planned <;> exact types_lastKnown_iff rfl rfl rfl rfl
      refine passing.trans ⟨?_, fun typed => ?_⟩
      · rintro ⟨types, typed, last⟩
        exact .unaExpr typed last
      · cases typed with
        | unaExpr typed last => exact ⟨_, typed, last⟩
  | ifStmt | whileStmt =>
      cases planned
      refine types_conditional_iff.trans ⟨?_, fun typed => ?_⟩
      · rintro ⟨condition, bodies, middle, types, rfl, typed, others, rfl⟩
        constructor
        · exact typed
        · exact others
      · cases typed
        next typed others => exact ⟨_, _, _, _, rfl, typed, others, rfl⟩
  | compExpr operator =>
      cases planned
      refine (types_comparison_iff operator).trans ⟨?_, fun typed => ?_⟩
      · rintro ⟨types, typed, joined⟩
        exact .compExpr typed joined
      · cases typed with
        | compExpr typed joined => exact ⟨_, typed, joined⟩
  | addExpr | mulExpr =>
      refine (types_sum_iff planned).trans ⟨?_, fun typed => ?_⟩
      · rintro ⟨types, typed, arithmetic⟩
        constructor
        · exact typed
        · exact arithmetic
      · cases typed
        next arithmetic typed => exact ⟨_, typed, arithmetic⟩
  | boolExpr tokens => exact types_iff_boolExpr planned
  | notExpr tokens => exact types_iff_notExpr planned
  | _ => cases planned

end

end Gathering

/-! ## The walk -/

namespace Check

section

variable {children : List Node} (decided : ∀ child ∈ children, Decides child)

include decided

private theorem realizes_gather (gathering : Gathering) (kind : Kind) :
    (gather gathering kind children).Realizes fun table type after =>
      gathering.Types table children type after := by
  have operands := fun child member => decided child (gathering.operands_subset children member)
  rw [gather]
  refine Realizes.emit_bind _ (Realizes.count_bind _ ?_)
  split
  · rename_i missing
    obtain ⟨needed, empty⟩ := (Bool.and_eq_true _ _).mp missing
    refine (realizes_fail _).congr fun table type after => ⟨False.elim, fun typed => ?_⟩
    exact typed.1 needed (List.isEmpty_iff.mp empty)
  · rename_i present
    refine ((realizes_visitEach operands _ _ []).bind (realizes_judge gathering)).congr
      fun table type after => ?_
    constructor
    · rintro ⟨types, middle, ⟨_, rfl, typed, admitted⟩, concluded, rfl⟩
      refine ⟨fun needed empty => present ?_, _, typed, admitted, concluded⟩
      rw [needed, empty]
      rfl
    · rintro ⟨-, types, typed, admitted, concluded⟩
      exact ⟨types, after, ⟨types, rfl, typed, admitted⟩, concluded, rfl⟩

omit decided in
private theorem exists_identifier_cons {name : String}
    (named : children[0]?.bind Node.identifier? = some name) :
    ∃ below rest, children = ⟨.identifier name, below⟩ :: rest := by
  cases children with
  | nil => cases named
  | cons first rest =>
      obtain ⟨below, rfl⟩ := Node.identifier?_eq_some_iff.mp named
      exact ⟨below, rest, rfl⟩

private theorem realizes_assignValue (name : String) (target : Option Ty) :
    (assignValue children name target).Realizes fun table type after =>
      ∃ value valueType, children[1]? = some value ∧ HasType table value valueType after ∧
        target.any (·.acceptsAssignment valueType) = true ∧ type = .unknown := by
  rw [assignValue]
  cases found : children[1]? with
  | none => exact (realizes_fail _).congr (by simp)
  | some value =>
      refine ((decided value (List.mem_of_getElem? found)).bind fun valueType =>
        (realizes_pure _).guard _).congr fun table type after => ?_
      constructor
      · rintro ⟨valueType, middle, typed, accepted, rfl, rfl⟩
        exact ⟨value, valueType, rfl, typed, accepted, rfl⟩
      · rintro ⟨_, valueType, ⟨⟩, typed, accepted, rfl⟩
        exact ⟨valueType, after, typed, accepted, rfl, rfl⟩

private theorem realizes_switchArms (name : String) (found : Option Ty) :
    (switchArms children name found).Realizes fun table type after =>
      ∃ subject types, found = some subject ∧ (subject = .number ∨ subject = .enumVar) ∧
        HasTypes (.arm subject) table children.tail types after ∧ type = .unknown := by
  rw [switchArms]
  cases chosen : found.filter Ty.isSwitchable with
  | none =>
      refine (realizes_fail _).congr fun table type after => ⟨False.elim, ?_⟩
      rintro ⟨subject, types, rfl, switchable, -⟩
      have refused := Option.filter_eq_none_iff.mp chosen subject rfl
      exact refused (Ty.isSwitchable_iff.mpr switchable)
  | some subject =>
      obtain ⟨rfl, switchable⟩ := Option.filter_eq_some_iff.mp chosen
      have arms := fun child member => decided child (List.mem_of_mem_tail member)
      refine ((realizes_visitAll arms (.arm subject)).bind fun _ =>
        realizes_pure Ty.unknown).congr fun table type after => ?_
      constructor
      · rintro ⟨types, _, typed, rfl, rfl⟩
        exact ⟨subject, types, rfl, Ty.isSwitchable_iff.mp switchable, typed, rfl⟩
      · rintro ⟨_, types, ⟨⟩, -, typed, rfl⟩
        exact ⟨types, after, typed, rfl, rfl⟩

private theorem decides_assignStmt : Decides ⟨.assignStmt, children⟩ := by
  rw [Decides, visit_assignStmt]
  refine (Realizes.emit_bind _ ((realizes_identifierAt _ _ _).bind fun name =>
    Realizes.lookup_bind name (realizes_assignValue decided name))).congr
      fun table type after => ?_
  constructor
  · rintro ⟨name, _, ⟨named, rfl⟩, value, valueType, second, typed, accepted, rfl⟩
    obtain ⟨below, rest, rfl⟩ := exists_identifier_cons named
    obtain ⟨rest, rfl⟩ : ∃ later, rest = value :: later := by
      cases rest with
      | nil => cases second
      | cons other later => exact ⟨later, by rw [Option.some.inj second]⟩
    obtain ⟨target, bound, accepted⟩ := (Option.any_eq_true _ _).mp accepted
    exact .assignStmt bound typed (Ty.acceptsAssignment_iff.mp accepted)
  · intro typed
    cases typed with
    | assignStmt bound typed accepted =>
        refine ⟨_, _, ⟨rfl, rfl⟩, _, _, rfl, typed, ?_, rfl⟩
        rw [bound, Option.any_some, Ty.acceptsAssignment_iff.mpr accepted]

private theorem decides_switchStmt : Decides ⟨.switchStmt, children⟩ := by
  rw [Decides, visit_switchStmt]
  refine (Realizes.emit_bind _ ((realizes_identifierAt _ _ _).bind fun name =>
    Realizes.lookup_bind name (realizes_switchArms decided name))).congr
      fun table type after => ?_
  constructor
  · rintro ⟨name, _, ⟨named, rfl⟩, subject, types, bound, switchable, typed, rfl⟩
    obtain ⟨below, arms, rfl⟩ := exists_identifier_cons named
    exact .switchStmt bound switchable typed
  · intro typed
    cases typed with
    | switchStmt bound switchable typed =>
        exact ⟨_, _, ⟨rfl, rfl⟩, _, _, bound, switchable, typed, rfl⟩

end

/-- A rule that declares names and gives no type. -/
private theorem decides_of_declares {label : Label} {children : List Node} {step : Check Unit}
    (realized : step.Realizes fun table _ after => HasType table ⟨label, children⟩ .unknown after)
    (visited : visit ⟨label, children⟩ =
      emit (.visit label.kind children.length) >>= fun _ => step >>= fun _ => pure .unknown)
    (untyped : ∀ table type after, HasType table ⟨label, children⟩ type after → type = .unknown) :
    Decides ⟨label, children⟩ := by
  rw [Decides, visited]
  refine (Realizes.emit_bind _ (realized.bind fun _ => realizes_pure Ty.unknown)).congr
    fun table type after => ?_
  constructor
  · rintro ⟨_, _, typed, rfl, rfl⟩
    exact typed
  · intro typed
    obtain rfl := untyped table type after typed
    exact ⟨(), after, typed, rfl, rfl⟩

private theorem decides_of_children (label : Label) (children : List Node)
    (decided : ∀ child ∈ children, Decides child) : Decides ⟨label, children⟩ := by
  cases planned : label.gathering? children.length with
  | some gathering =>
      rw [Decides, visit_of_gathering planned]
      exact (realizes_gather decided gathering label.kind).congr fun _ _ _ =>
        Gathering.types_iff_hasType planned
  | none =>
      cases label with
      | program | caseStmt =>
          rw [Decides, visit]
          exact (Realizes.emit_bind _ (realizes_fail _)).congr fun table type after =>
            ⟨False.elim, fun typed => by cases typed⟩
      | declaration typeName =>
          exact decides_of_declares (realizes_declareVariable typeName children) (by rw [visit])
            fun table type after typed => by cases typed <;> rfl
      | enumStmt =>
          exact decides_of_declares (realizes_declareEnum children) (by rw [visit])
            fun table type after typed => by cases typed; rfl
      | assignStmt => exact decides_assignStmt decided
      | switchStmt => exact decides_switchStmt decided
      | boolValue _ | intValue _ | identifier _ =>
          rw [Decides, visit]
          refine (Realizes.emit_bind _ (@realizes_pure Ty _)).congr fun table type after => ?_
          constructor
          · rintro ⟨rfl, rfl⟩
            constructor
          · intro typed
            cases typed
            exact ⟨rfl, rfl⟩
      | boolExpr tokens | notExpr tokens | unaExpr tokens => cases tokens <;> cases planned
      | _ => cases planned

theorem realizes_visit (node : Node) :
    (visit node).Realizes fun table type after => HasType table node type after :=
  Node.childrenInduction decides_of_children node

end Check

theorem Session.check_ok_iff_wellTyped (session : Session) (program : Node) (table : SymbolTable) :
    (∃ metrics, (session.check program).outcome = .ok metrics ∧
      (session.check program).session.symbols = table) ↔
      WellTyped session.symbols program table := by
  have items : ∀ children types after,
      (∃ reached, session.readItems children = (.ok types, reached) ∧
        reached.session.symbols = after) ↔
        HasTypes .plain session.symbols children types after := fun children types after =>
    Check.realizes_visitAll (fun child _ => Check.realizes_visit child) .plain _ types after
  constructor
  · rintro ⟨metrics, accepted, rfl⟩
    revert accepted
    refine Session.check_cases session program ?_ ?_ ?_
    · intro node _ accepted
      cases accepted
    · intro children fault reached _ accepted
      cases accepted
    · intro children types reached done _
      exact .program ((items children types _).mp ⟨reached, done, rfl⟩)
  · rintro ⟨typed⟩
    obtain ⟨reached, done, rfl⟩ := (items _ _ _).mpr typed
    rw [Session.check_of_ok done]
    exact ⟨_, rfl, rfl⟩

/-- A walk accepts a node exactly when the node is well typed where the walk stands, with the type
and the table that the judgement gives, and a session accepts a program exactly when the program is
well typed in it. -/
theorem check_sound_and_complete :
    (∀ (walk : Walk) (node : Node) (type : Ty) (table : SymbolTable),
      (∃ after, Check.visit node walk = (.ok type, after) ∧ after.session.symbols = table) ↔
        HasType walk.session.symbols node type table) ∧
    (∀ (session : Session) (program : Node) (table : SymbolTable),
      (∃ metrics, (session.check program).outcome = .ok metrics ∧
        (session.check program).session.symbols = table) ↔
        WellTyped session.symbols program table) :=
  ⟨fun walk node type table => Check.realizes_visit node walk type table,
    Session.check_ok_iff_wellTyped⟩

end TreeCheck
