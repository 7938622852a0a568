import TreeCheck.Node.Build
import TreeCheck.Proofs.Gathering

/-!
# Names that matter

A step is local to some names when it looks at no others: from two walks whose tables agree on these
names it goes on in the same way and gains the same bindings, counts and events. The walk of a tree
is local to the names that the tree mentions.
-/

set_option autoImplicit false

namespace TreeCheck

/-! ## Mentioned names -/

/-- The names that a label mentions. -/
def Label.names : Label → List String
  | .identifier name => [name]
  | .declaration typeName => typeName.toList
  | _ => []

namespace Node

mutual

/-- The names that a tree mentions, anywhere in it. -/
def names : Node → List String
  | ⟨label, children⟩ => label.names ++ namesAll children

/-- The names that a list of trees mentions. -/
def namesAll : List Node → List String
  | [] => []
  | node :: rest => node.names ++ namesAll rest

end

private theorem namesAll_eq (nodes : List Node) : namesAll nodes = nodes.flatMap names := by
  induction nodes with
  | nil => rw [namesAll, List.flatMap_nil]
  | cons node rest ih => rw [namesAll, ih, List.flatMap_cons]

theorem names_mk (label : Label) (children : List Node) :
    (Node.mk label children).names = label.names ++ children.flatMap names := by
  rw [names, namesAll_eq]

theorem names_subset_of_mem {label : Label} {child : Node} {children : List Node}
    (member : child ∈ children) : child.names ⊆ (Node.mk label children).names := by
  intro name mentioned
  rw [names_mk]
  exact List.mem_append_right _ (List.mem_flatMap.mpr ⟨child, member, mentioned⟩)

private theorem mem_names_of_identifier? {node : Node} {name : String}
    (named : node.identifier? = some name) : name ∈ node.names := by
  obtain ⟨below, rfl⟩ := identifier?_eq_some_iff.mp named
  rw [names_mk]
  exact List.mem_cons_self

end Node

/-! ## Tables that agree -/

namespace SymbolTable

/-- The two tables bind each of these names alike, or leave it unbound alike. -/
def AgreesOn (names : List String) (left right : SymbolTable) : Prop :=
  ∀ name ∈ names, left.lookup name = right.lookup name

instance (names : List String) (left right : SymbolTable) : Decidable (AgreesOn names left right) :=
  inferInstanceAs (Decidable (∀ name ∈ names, left.lookup name = right.lookup name))

variable {names : List String} {left right : SymbolTable}

theorem AgreesOn.extend (agree : AgreesOn names left right) {bindings : List (String × Ty)}
    {leftAfter rightAfter : SymbolTable} (leftExtended : left.Extends bindings leftAfter)
    (rightExtended : right.Extends bindings rightAfter) :
    AgreesOn names leftAfter rightAfter := by
  intro name mentioned
  rw [leftExtended.lookup_eq, rightExtended.lookup_eq, agree name mentioned]

theorem AgreesOn.mem_names_iff (agree : AgreesOn names left right) {name : String}
    (mentioned : name ∈ names) : name ∈ left.names ↔ name ∈ right.names := by
  rw [← Decidable.not_iff_not, ← lookup_eq_none_iff, ← lookup_eq_none_iff, agree name mentioned]

theorem AgreesOn.isTypeName_eq (agree : AgreesOn names left right) {name : String}
    (mentioned : name ∈ names) : left.isTypeName name = right.isTypeName name := by
  rw [isTypeName, isTypeName, agree name mentioned]

theorem AgreesOn.declaredType_eq (agree : AgreesOn names left right) {name : String}
    (mentioned : name ∈ names) : left.declaredType name = right.declaredType name := by
  rw [declaredType, declaredType, agree name mentioned]

end SymbolTable

/-! ## Local steps -/

namespace Check

/-- From walks whose tables agree on the names, the step has the same outcome and the same
effect. -/
def LocalTo {α : Type} (names : List String) (step : Check α) : Prop :=
  ∀ left right : Walk, left.session.symbols.AgreesOn names right.session.symbols →
    ∃ growth, left.Grows growth (step left).2 ∧ right.Grows growth (step right).2 ∧
      (step left).1 = (step right).1

variable {names : List String}

theorem localTo_pure {α : Type} (value : α) : (pure value : Check α).LocalTo names :=
  fun left right _ => ⟨0, .refl left, .refl right, rfl⟩

theorem localTo_fail {α : Type} (fault : Fault) : (fail fault : Check α).LocalTo names :=
  fun left right _ => ⟨0, .refl left, .refl right, rfl⟩

theorem localTo_emit (event : Event) : (emit event).LocalTo names :=
  fun left right _ => ⟨_, emit_grows event left, emit_grows event right, rfl⟩

theorem localTo_count {update : Metrics → Metrics} {counts : Metrics}
    (adds : ∀ metrics, update metrics = metrics + counts) : (count update).LocalTo names :=
  fun left right _ => ⟨_, count_grows adds left, count_grows adds right, rfl⟩

theorem localTo_lookup {name : String} (mentioned : name ∈ names) :
    (lookup name).LocalTo names :=
  fun left right agree => ⟨0, .refl left, .refl right, congrArg Except.ok (agree name mentioned)⟩

theorem localTo_declare {name : String} (mentioned : name ∈ names) (type : Ty) :
    (declare name type).LocalTo names := by
  intro left right agree
  have same := agree.mem_names_iff mentioned
  rcases declare_cases name type left with ⟨bound, stopped⟩ | ⟨symbols, extended, declared⟩
  · rcases declare_cases name type right with ⟨-, stoppedRight⟩ | ⟨_, extendedRight, -⟩
    · rw [stopped, stoppedRight]
      exact ⟨0, .refl left, .refl right, rfl⟩
    · exact absurd (same.mp bound) (extendedRight.fresh (by simp))
  · rcases declare_cases name type right with ⟨bound, -⟩ | ⟨_, extendedRight, declaredRight⟩
    · exact absurd (same.mpr bound) (extended.fresh (by simp))
    · rw [declared, declaredRight]
      exact ⟨_, declared_grows extended, declared_grows extendedRight, rfl⟩

theorem LocalTo.bind {α β : Type} {step : Check α} {next : α → Check β}
    (located : step.LocalTo names) (continued : ∀ value, (next value).LocalTo names) :
    (step >>= next).LocalTo names := by
  intro left right agree
  obtain ⟨growth, leftGrows, rightGrows, same⟩ := located left right agree
  rcases leftRun : step left with ⟨outcome, leftReached⟩
  rcases rightRun : step right with ⟨_, rightReached⟩
  rw [leftRun, rightRun] at same
  rw [leftRun] at leftGrows
  rw [rightRun] at rightGrows
  cases same
  cases outcome with
  | error fault =>
      rw [bind_of_error next leftRun, bind_of_error next rightRun]
      exact ⟨growth, leftGrows, rightGrows, rfl⟩
  | ok value =>
      rw [bind_of_ok next leftRun, bind_of_ok next rightRun]
      obtain ⟨more, leftMore, rightMore, same⟩ := continued value leftReached rightReached
        (agree.extend leftGrows.symbols rightGrows.symbols)
      exact ⟨growth + more, leftGrows.trans leftMore, rightGrows.trans rightMore, same⟩

/-- A step may look at the whole session as long as it does the same in sessions that agree. -/
theorem localTo_current_bind {α : Type} {next : Session → Check α}
    (same : ∀ left right : Session, left.symbols.AgreesOn names right.symbols →
      next left = next right)
    (continued : ∀ session, (next session).LocalTo names) : (current >>= next).LocalTo names := by
  intro left right agree
  rw [bind_of_ok next (rfl : current left = (.ok left.session, left)),
    bind_of_ok next (rfl : current right = (.ok right.session, right)),
    ← same left.session right.session agree]
  exact continued left.session left right agree

theorem LocalTo.map {α β : Type} {step : Check α} (located : step.LocalTo names)
    (result : α → β) : (step >>= fun value => pure (result value)).LocalTo names :=
  located.bind fun value => localTo_pure (result value)

theorem localTo_require {α : Type} {condition : Prop} [Decidable condition] (value : α)
    (broken : Violation) :
    (if condition then pure value else reject broken : Check α).LocalTo names := by
  split
  · exact localTo_pure value
  · exact localTo_fail _

/-- The name of a child is one of the names that the child mentions. -/
theorem localTo_identifier_bind {α : Type} (parent : Kind) (index : Nat) {child : Node}
    {next : String → Check α} (mentioned : child.names ⊆ names)
    (continued : ∀ name ∈ names, (next name).LocalTo names) :
    (identifier parent index child >>= next).LocalTo names := by
  rw [identifier]
  cases found : child.identifier? with
  | none => exact localTo_fail (.malformed (.notIdentifier parent index child.kind))
  | some name => exact continued name (mentioned (Node.mem_names_of_identifier? found))

private theorem localTo_identifierAt_bind {α : Type} (parent : Kind) {children : List Node}
    (index : Nat)
    {next : String → Check α} (mentioned : ∀ child ∈ children, child.names ⊆ names)
    (continued : ∀ name ∈ names, (next name).LocalTo names) :
    (identifierAt parent children index >>= next).LocalTo names := by
  rw [identifierAt]
  cases found : children[index]? with
  | none => exact localTo_fail (.malformed (.missingChild parent index))
  | some child =>
      exact localTo_identifier_bind parent index (mentioned child (List.mem_of_getElem? found))
        continued

theorem localTo_resolve {name : String} (mentioned : name ∈ names) :
    (resolve name).LocalTo names := by
  refine (localTo_lookup mentioned).bind fun found => ?_
  cases found with
  | none => exact localTo_fail _
  | some type => exact localTo_pure type

theorem localTo_caseLabel (subject : Ty) {children : List Node}
    (mentioned : ∀ child ∈ children, child.names ⊆ names) :
    (caseLabel subject children).LocalTo names := by
  cases children with
  | nil => exact localTo_fail _
  | cons label body =>
      rcases label with ⟨label, below⟩
      cases label with
      | identifier name =>
          have named : name ∈ names :=
            mentioned ⟨.identifier name, below⟩ (by simp) (Node.mem_names_of_identifier? rfl)
          exact (localTo_lookup named).bind fun _ => localTo_require _ _
      | intValue value => exact localTo_require _ _
      | _ => exact localTo_fail _

/-! ## Declarations -/

theorem localTo_declareVariable {typeName : Option String} {children : List Node}
    (named : ∀ name ∈ typeName, name ∈ names)
    (mentioned : ∀ child ∈ children, child.names ⊆ names) :
    (declareVariable typeName children).LocalTo names := by
  rw [declareVariable]
  match children with
  | [] => exact localTo_fail _
  | [only] =>
      refine localTo_identifierAt_bind _ 0 mentioned fun name declared => ?_
      refine localTo_current_bind (fun left right agree => ?_) fun session => ?_
      · cases typeName with
        | none => rfl
        | some typeName => simp only [Option.map_some, agree.declaredType_eq (named typeName rfl)]
      · exact (localTo_emit _).bind fun _ => localTo_declare declared _
  | first :: second :: rest =>
      rw [if_pos (by simp)]
      refine localTo_identifierAt_bind _ 0 mentioned fun typeName typed => ?_
      refine localTo_identifierAt_bind _ 1 mentioned fun name declared => ?_
      refine localTo_current_bind (fun left right agree => ?_) fun session => ?_
      · simp only [agree.isTypeName_eq typed, agree.declaredType_eq typed]
      · dsimp only
        split
        · exact (localTo_emit _).bind fun _ => localTo_declare declared _
        · exact localTo_fail _

private theorem localTo_declareValues (index : Nat) {children : List Node}
    (mentioned : ∀ child ∈ children, child.names ⊆ names) :
    (declareValues index children).LocalTo names := by
  induction children generalizing index with
  | nil =>
      rw [declareValues]
      exact localTo_pure ()
  | cons child rest ih =>
      obtain ⟨first, others⟩ := List.forall_mem_cons.mp mentioned
      rw [declareValues]
      refine localTo_identifier_bind _ _ first fun name declared => ?_
      exact (localTo_declare declared _).bind fun _ => ih (index + 1) others

theorem localTo_declareEnum {children : List Node}
    (mentioned : ∀ child ∈ children, child.names ⊆ names) :
    (declareEnum children).LocalTo names := by
  cases children with
  | nil => exact localTo_fail _
  | cons first values =>
      obtain ⟨typed, others⟩ := List.forall_mem_cons.mp mentioned
      rw [declareEnum]
      refine localTo_identifier_bind _ _ typed fun typeName declared => ?_
      exact (localTo_count fun metrics => metrics.addEnumValues_eq values.length).bind
        fun _ => (localTo_emit _).bind fun _ =>
          (localTo_declare declared _).bind fun _ => localTo_declareValues 1 others

/-! ## The walk -/

theorem localTo_read {child : Node} (located : (visit child).LocalTo names)
    (mentioned : child.names ⊆ names) (position : Position) :
    (read position child).LocalTo names := by
  revert located mentioned
  refine read_cases position child (fun walks => ?_) (fun name below => ?_)
    fun subject below => ?_
  · intro located _
    rw [read_of_walks walks]
    exact located
  · intro _ mentioned
    exact localTo_resolve (mentioned (Node.mem_names_of_identifier? rfl))
  · intro _ mentioned
    exact localTo_caseLabel subject fun label member =>
      List.Subset.trans (Node.names_subset_of_mem member) mentioned

private theorem localTo_visitEach {children : List Node}
    (located : ∀ child ∈ children, (visit child).LocalTo names)
    (mentioned : ∀ child ∈ children, child.names ⊆ names)
    (position : Position) (admitted : Admission) (earlier : List Ty) :
    (visitEach position admitted earlier children).LocalTo names := by
  induction children generalizing earlier with
  | nil =>
      rw [visitEach_nil]
      exact localTo_pure earlier
  | cons child rest ih =>
      obtain ⟨first, others⟩ := List.forall_mem_cons.mp located
      obtain ⟨firstNames, otherNames⟩ := List.forall_mem_cons.mp mentioned
      rw [visitEach_cons]
      refine (localTo_read first firstNames position).bind fun type => ?_
      split
      · exact ih others otherNames (earlier ++ [type])
      · exact localTo_fail _

section

variable {children : List Node}
  (located : ∀ child ∈ children, (visit child).LocalTo names)

include located

private theorem localTo_gather (mentioned : ∀ child ∈ children, child.names ⊆ names)
    (gathering : Gathering) (kind : Kind) : (gather gathering kind children).LocalTo names := by
  have judged (types : List Ty) : (judge gathering types).LocalTo names := by
    rw [judge]
    refine (localTo_count fun _ => rfl).bind fun _ => ?_
    cases gathering.conclude types with
    | none => exact localTo_fail _
    | some type => exact localTo_pure type
  have within := gathering.operands_subset children
  rw [gather]
  refine (localTo_emit _).bind fun _ => (localTo_count fun _ => rfl).bind fun _ => ?_
  split
  · exact localTo_fail _
  · exact (localTo_visitEach (fun child member => located child (within member))
      (fun child member => mentioned child (within member)) _ _ []).bind judged

private theorem localTo_assignValue (name : String) (target : Option Ty) :
    (assignValue children name target).LocalTo names := by
  rw [assignValue]
  cases found : children[1]? with
  | none => exact localTo_fail _
  | some value =>
      exact (located value (List.mem_of_getElem? found)).bind fun _ => localTo_require _ _

private theorem localTo_switchArms (mentioned : ∀ child ∈ children, child.names ⊆ names)
    (name : String) (subject : Option Ty) : (switchArms children name subject).LocalTo names := by
  rw [switchArms]
  split
  · exact localTo_fail _
  · exact (localTo_visitEach (fun child member => located child (List.mem_of_mem_tail member))
      (fun child member => mentioned child (List.mem_of_mem_tail member)) _ _ []).map _

end

private theorem localTo_of_children (label : Label) (children : List Node)
    (ih : ∀ child ∈ children, child.names ⊆ names → (visit child).LocalTo names)
    (inside : (Node.mk label children).names ⊆ names) :
    (visit ⟨label, children⟩).LocalTo names := by
  have mentioned : ∀ child ∈ children, child.names ⊆ names :=
    fun child member => List.Subset.trans (Node.names_subset_of_mem member) inside
  have located : ∀ child ∈ children, (visit child).LocalTo names :=
    fun child member => ih child member (mentioned child member)
  cases planned : label.gathering? children.length with
  | some gathering =>
      rw [visit_of_gathering planned]
      exact localTo_gather located mentioned gathering label.kind
  | none =>
      cases label with
      | program | caseStmt =>
          rw [visit]
          exact (localTo_emit _).bind fun _ => localTo_fail _
      | declaration typeName =>
          have named : ∀ name ∈ typeName, name ∈ names := by
            rintro name rfl
            exact inside (by rw [Node.names_mk]; exact List.mem_cons_self)
          rw [visit]
          exact (localTo_emit _).bind fun _ => (localTo_declareVariable named mentioned).map _
      | enumStmt =>
          rw [visit]
          exact (localTo_emit _).bind fun _ => (localTo_declareEnum mentioned).map _
      | assignStmt =>
          rw [visit_assignStmt]
          exact (localTo_emit _).bind fun _ =>
            localTo_identifierAt_bind _ 0 mentioned fun name assigned =>
              (localTo_lookup assigned).bind fun target => localTo_assignValue located name target
      | switchStmt =>
          rw [visit_switchStmt]
          exact (localTo_emit _).bind fun _ =>
            localTo_identifierAt_bind _ 0 mentioned fun name switched =>
              (localTo_lookup switched).bind fun subject =>
                localTo_switchArms located mentioned name subject
      | boolValue _ | intValue _ | identifier _ =>
          rw [visit]
          exact (localTo_emit _).map _
      | boolExpr tokens | notExpr tokens | unaExpr tokens => cases tokens <;> cases planned
      | _ => cases planned

theorem localTo_visit {node : Node} (mentioned : node.names ⊆ names) :
    (visit node).LocalTo names :=
  Node.childrenInduction localTo_of_children node mentioned

end Check

/-! ## Programs -/

theorem Session.readItems_agree {left right : Session} {items : List Node}
    (agree : left.symbols.AgreesOn (Node.mk .program items).names right.symbols) :
    ∃ growth,
      Walk.Grows ⟨left, [.checking (Node.mk .program items).size]⟩ growth
        (left.readItems items).2 ∧
      Walk.Grows ⟨right, [.checking (Node.mk .program items).size]⟩ growth
        (right.readItems items).2 ∧
      (left.readItems items).1 = (right.readItems items).1 :=
  Check.localTo_visitEach
    (fun _ member => Check.localTo_visit (Node.names_subset_of_mem member))
    (fun _ member => Node.names_subset_of_mem member) .plain .any [] _ _ agree

/-- In two sessions that agree on the names that a program mentions, the program is accepted in both
or refused for the same fault in both. In either case both sessions gain the same bindings, and
their counters grow alike. -/
theorem check_determined_by_names {left right : Session} {program : Node}
    (agree : left.symbols.AgreesOn program.names right.symbols) :
    (left.check program).outcome.map (fun _ => ()) =
        (right.check program).outcome.map (fun _ => ()) ∧
    ∃ (added : List (String × Ty)) (counts : Metrics),
      left.symbols.Extends added (left.check program).session.symbols ∧
      right.symbols.Extends added (right.check program).session.symbols ∧
      left.metrics.Increase counts (left.check program).session.metrics ∧
      right.metrics.Increase counts (right.check program).session.metrics := by
  by_cases root : program.label = .program
  · rcases program with ⟨label, items⟩
    cases root
    obtain ⟨growth, leftGrows, rightGrows, same⟩ := Session.readItems_agree agree
    rcases leftRun : left.readItems items with ⟨outcome, leftReached⟩
    rcases rightRun : right.readItems items with ⟨_, rightReached⟩
    rw [leftRun, rightRun] at same
    rw [leftRun] at leftGrows
    rw [rightRun] at rightGrows
    cases same
    cases outcome with
    | error fault =>
        rw [Session.check_of_error leftRun, Session.check_of_error rightRun]
        exact ⟨rfl, growth.bindings, growth.counts, leftGrows.symbols, rightGrows.symbols,
          leftGrows.increase, rightGrows.increase⟩
    | ok types =>
        rw [Session.check_of_ok leftRun, Session.check_of_ok rightRun]
        exact ⟨rfl, growth.bindings, growth.counts, leftGrows.symbols, rightGrows.symbols,
          Session.increase_counted leftGrows.increase,
          Session.increase_counted rightGrows.increase⟩
  · rw [Session.check_of_label_ne root, Session.check_of_label_ne root]
    exact ⟨rfl, [], 0, .refl _, .refl _, Metrics.increase_add _ 0, Metrics.increase_add _ 0⟩

/-- The variable `steps` is declared as a number and then assigned a boolean. -/
def Node.misassigned : Node :=
  .program [.declaration "num" "steps", .stmt (.assign "steps" (.expr (.boolean true)))]

/-- A session that has a variable of another name and has seen three conditionals. -/
def Session.afterConditionals : Session where
  symbols := ⟨[("ready", .bool)], by decide⟩
  metrics := { ifs := 3 }

theorem misassigned_determined_by_names :
    SymbolTable.AgreesOn Node.misassigned.names .empty Session.afterConditionals.symbols ∧
    (Session.afterConditionals.check .misassigned).outcome.map (fun _ => ()) =
      .error (.violation (.invalidAssignmentType "steps")) ∧
    ∃ added,
      SymbolTable.empty.Extends added (Session.check {} .misassigned).session.symbols ∧
      Session.afterConditionals.symbols.Extends added
        (Session.afterConditionals.check .misassigned).session.symbols := by
  have agree : (SymbolTable.AgreesOn Node.misassigned.names (Session.symbols {})
      Session.afterConditionals.symbols) := by decide +kernel
  have refused : (Session.check {} .misassigned).outcome.map (fun _ => ()) =
      .error (.violation (.invalidAssignmentType "steps")) := by cbv
  obtain ⟨same, added, _, extended, extendedAlike, -, -⟩ := check_determined_by_names agree
  exact ⟨agree, same.symm.trans refused, added, extended, extendedAlike⟩

end TreeCheck
