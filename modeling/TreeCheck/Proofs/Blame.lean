import TreeCheck.Proofs.Retyping
import TreeCheck.Proofs.TypingConditions

/-!
# What a violation says

A violation names what it is about: a name, a type, the label of a case. `Node.Breaks` says what
must be true of a node and of a table for the node to be the one that is meant. Whenever a program
is refused for a violation, a node that has been walked is meant, and in the table that the run
leaves behind it is still as the violation says.
-/

set_option autoImplicit false

namespace TreeCheck

def CaseLabel.toLabel : CaseLabel → Label
  | .integer value => .intValue value
  | .identifier name => .identifier name

/-- A switch on this type, a number or an enumeration variable, does not take the label. -/
def CaseLabel.Misfits (label : CaseLabel) (subject : Ty) (table : SymbolTable) : Prop :=
  match label with
  | .integer _ => subject = .enumVar
  | .identifier name => ∀ type, table.lookup name = some type → subject.acceptsCase type = false

theorem Ty.eq_enumVar_of_isSwitchable {subject : Ty} (switchable : subject.isSwitchable = true)
    (refused : subject.acceptsCase .number = false) : subject = .enumVar := by
  rcases isSwitchable_iff.mp switchable with rfl | rfl
  · cases refused
  · rfl

theorem SymbolTable.isTypeName_eq_false_iff {table : SymbolTable} {name : String} :
    table.isTypeName name = false ↔
      name ≠ "num" ∧ name ≠ "bool" ∧ table.lookup name ≠ some .enumType := by
  rw [isTypeName, Bool.or_eq_false_iff, beq_eq_false_iff_ne, Ty.ofKeyword?]
  split
  · simp_all
  · split <;> simp_all

/-- Only values look identifiers up. -/
theorem Label.eq_genValue_of_gathering {label : Label} {arity : Nat} {gathering : Gathering}
    (planned : label.gathering? arity = some gathering) (value : gathering.position = .value) :
    label = .genValue := by
  cases label with
  | genValue => rfl
  | addExpr | mulExpr =>
      cases planned
      split at value <;> cases value
  | boolExpr tokens | notExpr tokens | unaExpr tokens =>
      cases tokens <;> cases planned <;> cases value
  | _ => cases planned <;> cases value

namespace Node

/-- The child at `index` is an identifier with this name. -/
def NamesAt (node : Node) (index : Nat) (name : String) : Prop :=
  node.children[index]?.bind identifier? = some name

/-- The violation is about this node and what it says is true in the table. Two violations name
nothing, so nothing is said by them. -/
def Breaks (node : Node) (broken : Violation) (table : SymbolTable) : Prop :=
  match broken with
  | .undefinedIdentifier name =>
    node.kind = .genValue ∧ (∃ child ∈ node.children, child.identifier? = some name) ∧
      table.lookup name = none
  | .multipleDeclaration name => name ∈ node.declares.map Prod.fst ∧ name ∈ table.names
  | .unknownDeclaredType name typeName =>
    node.kind = .declaration ∧ node.NamesAt 0 typeName ∧ node.NamesAt 1 name ∧
      typeName ≠ "num" ∧ typeName ≠ "bool" ∧ table.lookup typeName ≠ some .enumType
  | .invalidSwitchType name =>
    node.kind = .switchStmt ∧ node.NamesAt 0 name ∧
      ∀ type, table.lookup name = some type → type ≠ .number ∧ type ≠ .enumVar
  | .invalidCaseType label =>
    node.kind = .switchStmt ∧ ∃ name subject, node.NamesAt 0 name ∧
      table.lookup name = some subject ∧ (subject = .number ∨ subject = .enumVar) ∧
      (∃ arm ∈ node.children.tail,
        arm.kind = .caseStmt ∧ arm.children.head?.map Node.label = some label.toLabel) ∧
      label.Misfits subject table
  | .invalidAssignmentType name => node.kind = .assignStmt ∧ node.NamesAt 0 name
  | .invalidConditionType | .invalidExpressionType => True

/-- The violation is about one of the nodes. -/
def OneBreaks (nodes : List Node) (broken : Violation) (table : SymbolTable) : Prop :=
  ∃ node ∈ nodes, node.Breaks broken table

theorem OneBreaks.mono {nodes more : List Node} {broken : Violation} {table : SymbolTable}
    (found : OneBreaks nodes broken table) (included : nodes ⊆ more) :
    OneBreaks more broken table := by
  obtain ⟨node, member, breaks⟩ := found
  exact ⟨node, included member, breaks⟩

section

variable {label : Label} {children : List Node} {broken : Violation} {table : SymbolTable}

private theorem oneBreaks_of_root (breaks : (Node.mk label children).Breaks broken table) :
    OneBreaks (Node.mk label children).walk broken table := by
  rw [walk]
  exact ⟨_, List.mem_cons_self, breaks⟩

private theorem oneBreaks_of_below (found : OneBreaks (walkBelow label 0 children) broken table) :
    OneBreaks (Node.mk label children).walk broken table := by
  rw [walk]
  exact found.mono (List.subset_cons_self _ _)

end

end Node

/-- What a parent has against a child that it reads by itself in this position. -/
def Position.Objects (position : Position) (children : List Node) (broken : Violation)
    (table : SymbolTable) : Prop :=
  match position with
  | .plain => False
  | .value => ∃ child ∈ children, ∃ name, child.identifier? = some name ∧
      table.lookup name = none ∧ broken = .undefinedIdentifier name
  | .arm subject => ∃ arm ∈ children, ∃ label : CaseLabel, arm.kind = .caseStmt ∧
      arm.children.head?.map Node.label = some label.toLabel ∧
      (subject.isSwitchable = true → label.Misfits subject table) ∧
      broken = .invalidCaseType label

/-- The violation is about a node walked from one of the children, or the parent objects. -/
def Position.Blames (position : Position) (children : List Node) (broken : Violation)
    (table : SymbolTable) : Prop :=
  Node.OneBreaks (position.walked children) broken table ∨
    position.Objects children broken table

theorem Position.walked_subset (position : Position) {children more : List Node}
    (included : children ⊆ more) : position.walked children ⊆ position.walked more := by
  intro node member
  obtain ⟨child, belongs, below⟩ := List.mem_flatMap.mp member
  exact List.mem_flatMap.mpr ⟨child, included belongs, below⟩

theorem Position.Blames.mono {position : Position} {children more : List Node}
    {broken : Violation} {table : SymbolTable} (blamed : position.Blames children broken table)
    (included : children ⊆ more) : position.Blames more broken table := by
  rcases blamed with found | objected
  · exact .inl (found.mono (position.walked_subset included))
  · cases position with
    | plain => exact objected.elim
    | value =>
        obtain ⟨child, member, objection⟩ := objected
        exact .inr ⟨child, included member, objection⟩
    | arm subject =>
        obtain ⟨arm, member, objection⟩ := objected
        exact .inr ⟨arm, included member, objection⟩

namespace Check

/-- Every violation that stops the step is as stated, in the table that the step leaves. -/
def Blames {α : Type} (step : Check α) (stated : Violation → SymbolTable → Prop) : Prop :=
  ∀ walk broken after, step walk = (.error (.violation broken), after) →
    stated broken after.session.symbols

section

variable {α β : Type} {stated : Violation → SymbolTable → Prop}

theorem blames_pure (value : α) : (pure value : Check α).Blames stated := by
  intro walk broken after stopped
  cases stopped

theorem blames_malformed (shape : Malformed) : (malformed shape : Check α).Blames stated := by
  intro walk broken after stopped
  cases stopped

private theorem blames_reject {broken : Violation} (holds : ∀ table, stated broken table) :
    (reject broken : Check α).Blames stated := by
  intro walk broken after stopped
  cases stopped
  exact holds _

theorem Blames.mono {step : Check α} {other : Violation → SymbolTable → Prop}
    (blamed : step.Blames stated) (weaker : ∀ broken table, stated broken table →
      other broken table) : step.Blames other :=
  fun walk broken after stopped => weaker broken _ (blamed walk broken after stopped)

theorem Blames.bind {step : Check α} {next : α → Check β} (blamed : step.Blames stated)
    (continued : ∀ value, (next value).Blames stated) : (step >>= next).Blames stated := by
  intro walk broken after stopped
  rcases run : step walk with ⟨fault | value, reached⟩
  · rw [bind_of_error next run] at stopped
    cases stopped
    exact blamed walk broken after run
  · rw [bind_of_ok next run] at stopped
    exact continued value reached broken after stopped

theorem blames_emit (event : Event) : (emit event).Blames stated := by
  intro walk broken after stopped
  cases stopped

theorem blames_count (update : Metrics → Metrics) : (count update).Blames stated := by
  intro walk broken after stopped
  cases stopped

theorem blames_lookup (name : String) : (lookup name).Blames stated := by
  intro walk broken after stopped
  cases stopped

private theorem blames_identifier_bind (parent : Kind) (index : Nat) {child : Node}
    {next : String → Check α}
    (continued : ∀ name, child.identifier? = some name → (next name).Blames stated) :
    (identifier parent index child >>= next).Blames stated := by
  rw [identifier]
  cases found : child.identifier? with
  | none => exact blames_malformed _
  | some name => exact continued name found

private theorem blames_identifierAt_bind (parent : Kind) {children : List Node} (index : Nat)
    {next : String → Check α}
    (continued : ∀ name, children[index]?.bind Node.identifier? = some name →
      (next name).Blames stated) :
    (identifierAt parent children index >>= next).Blames stated := by
  rw [identifierAt]
  cases found : children[index]? with
  | none => exact blames_malformed _
  | some child =>
      rw [found] at continued
      exact blames_identifier_bind parent index continued

theorem blames_require {condition : Prop} [Decidable condition] (value : α) {broken : Violation}
    (holds : ¬ condition → ∀ table, stated broken table) :
    (if condition then pure value else reject broken : Check α).Blames stated := by
  split
  · exact blames_pure value
  · rename_i fails
    exact blames_reject (holds fails)

end

/-! ## Names -/

theorem blames_declare (name : String) (type : Ty) :
    (declare name type).Blames fun broken table =>
      broken = .multipleDeclaration name ∧ name ∈ table.names := by
  intro walk broken after stopped
  rcases declare_cases name type walk with ⟨bound, refused⟩ | ⟨symbols, -, declared⟩
  · rw [refused] at stopped
    cases stopped
    exact ⟨rfl, bound⟩
  · rw [declared] at stopped
    cases stopped

theorem blames_resolve (name : String) :
    (resolve name).Blames fun broken table =>
      table.lookup name = none ∧ broken = .undefinedIdentifier name := by
  intro walk broken after stopped
  rw [resolve, lookup_bind_apply] at stopped
  cases found : walk.session.symbols.lookup name with
  | none =>
      rw [found] at stopped
      cases stopped
      exact ⟨found, rfl⟩
  | some type =>
      rw [found] at stopped
      cases stopped

private theorem blames_caseLabel (subject : Ty) (children : List Node) :
    (caseLabel subject children).Blames fun broken table => ∃ label : CaseLabel,
      children.head?.map Node.label = some label.toLabel ∧
      (subject.isSwitchable = true → label.Misfits subject table) ∧
      broken = .invalidCaseType label := by
  cases children with
  | nil => exact blames_malformed _
  | cons first body =>
      rcases first with ⟨label, below⟩
      cases label with
      | identifier name =>
          intro walk broken after stopped
          have judged : (if (walk.session.symbols.lookup name).any subject.acceptsCase
              then pure Ty.unknown
              else reject (.invalidCaseType (.identifier name)) : Check Ty) walk = _ := stopped
          split at judged
          · cases judged
          · rename_i refused
            cases judged
            refine ⟨.identifier name, rfl, fun _ type bound => ?_, rfl⟩
            rw [bound] at refused
            exact Bool.eq_false_iff.mpr refused
      | intValue value =>
          refine blames_require _ fun refused table => ?_
          refine ⟨.integer value, rfl, fun switchable => ?_, rfl⟩
          exact Ty.eq_enumVar_of_isSwitchable switchable (Bool.eq_false_iff.mpr refused)
      | _ => exact blames_malformed _

/-! ## Declarations -/

private theorem blames_declareVariable (typeName : Option String) (children : List Node) :
    (declareVariable typeName children).Blames
      (Node.mk (.declaration typeName) children).Breaks := by
  have declared {name : String} (type : Ty)
      (named : name ∈ (Node.mk (.declaration typeName) children).declares.map Prod.fst) :
      (emit (.declareVariable name type) >>= fun _ => declare name type).Blames
        (Node.mk (.declaration typeName) children).Breaks := by
    refine (blames_emit _).bind fun _ => (blames_declare name type).mono ?_
    rintro _ table ⟨rfl, bound⟩
    exact ⟨named, bound⟩
  rw [declareVariable]
  cases children with
  | nil => exact blames_malformed _
  | cons first rest =>
      cases rest with
      | nil =>
          refine blames_identifier_bind _ _ fun name named => ?_
          intro walk
          exact declared _ (by simp [Node.declares, named]) walk
      | cons second rest =>
          rw [if_pos (by simp)]
          refine blames_identifier_bind _ _ fun enumType typed => ?_
          refine blames_identifier_bind _ _ fun name named => ?_
          intro walk broken after stopped
          rw [current_bind_apply] at stopped
          split at stopped
          · exact declared _ (by simp [Node.declares, named]) walk broken after stopped
          · rename_i stray
            cases stopped
            obtain ⟨number, bool, unbound⟩ :=
              SymbolTable.isTypeName_eq_false_iff.mp (Bool.eq_false_iff.mpr stray)
            exact ⟨rfl, typed, named, number, bool, unbound⟩

private theorem blames_declareValues (index : Nat) (children : List Node) :
    (declareValues index children).Blames fun broken table =>
      ∃ name ∈ children.filterMap Node.identifier?,
        broken = .multipleDeclaration name ∧ name ∈ table.names := by
  induction children generalizing index with
  | nil =>
      rw [declareValues]
      exact blames_pure ()
  | cons child rest ih =>
      rw [declareValues]
      refine blames_identifier_bind _ _ fun name named => ?_
      rw [List.filterMap_cons_some named]
      refine ((blames_declare name .enumValue).mono ?_).bind fun _ => (ih (index + 1)).mono ?_
      · intro broken table taken
        exact ⟨name, List.mem_cons_self, taken⟩
      · rintro broken table ⟨later, member, taken⟩
        exact ⟨later, List.mem_cons_of_mem name member, taken⟩

private theorem blames_declareEnum (children : List Node) :
    (declareEnum children).Blames (Node.mk .enumStmt children).Breaks := by
  cases children with
  | nil => exact blames_malformed _
  | cons first values =>
      rw [declareEnum]
      refine blames_identifier_bind _ _ fun typeName named => ?_
      refine (blames_count _).bind fun _ => (blames_emit _).bind fun _ => ?_
      refine ((blames_declare typeName .enumType).mono ?_).bind fun _ =>
        (blames_declareValues 1 values).mono ?_
      · rintro _ table ⟨rfl, bound⟩
        exact ⟨by simp [Node.declares, named], bound⟩
      · rintro _ table ⟨name, member, rfl, bound⟩
        refine ⟨?_, bound⟩
        rw [Node.declares, List.map_append]
        apply List.mem_append_right
        simpa using member

/-! ## The walk -/

private theorem blames_read {child : Node}
    (blamed : (visit child).Blames (Node.OneBreaks child.walk)) (position : Position) :
    (read position child).Blames (position.Blames [child]) := by
  revert blamed
  refine read_cases position child (fun walks blamed => ?_) (fun name below _ => ?_)
    fun subject below _ => ?_
  · rw [read_of_walks walks]
    refine blamed.mono fun broken table found => .inl ?_
    rw [Position.walked, List.flatMap_singleton, if_pos walks]
    exact found
  · refine Blames.mono (blames_resolve name) ?_
    rintro _ table ⟨unbound, rfl⟩
    exact .inr ⟨_, List.mem_singleton_self _, name, rfl, unbound, rfl⟩
  · refine Blames.mono (blames_caseLabel subject below) ?_
    rintro _ table ⟨label, labelled, misfits, rfl⟩
    exact .inr ⟨_, List.mem_singleton_self _, label, rfl, labelled, misfits, rfl⟩

theorem blames_visitEach {children : List Node}
    (blamed : ∀ child ∈ children, (visit child).Blames (Node.OneBreaks child.walk))
    (position : Position) (admitted : Admission) (earlier : List Ty) :
    (visitEach position admitted earlier children).Blames fun broken table =>
      position.Blames children broken table ∨
        broken = .invalidExpressionType ∧ ∃ earlier type, admitted earlier type = false := by
  induction children generalizing earlier with
  | nil =>
      rw [visitEach_nil]
      exact blames_pure earlier
  | cons child rest ih =>
      obtain ⟨first, others⟩ := List.forall_mem_cons.mp blamed
      rw [visitEach_cons]
      refine Blames.bind (Blames.mono (blames_read first position) ?_) fun type => ?_
      · exact fun _ _ found => .inl (found.mono (by simp))
      · split
        · refine (ih others (earlier ++ [type])).mono fun _ _ found => found.imp_left ?_
          exact fun later => later.mono (List.subset_cons_self child rest)
        · rename_i refused
          exact blames_reject fun _ => .inr ⟨rfl, earlier, type, Bool.eq_false_iff.mpr refused⟩

private theorem blames_judge (gathering : Gathering) (types : List Ty) (node : Node) :
    (judge gathering types).Blames node.Breaks := by
  rw [judge]
  refine (blames_count _).bind fun _ => ?_
  cases gathering.conclude types with
  | some type => exact blames_pure type
  | none =>
      refine blames_reject fun table => ?_
      rcases gathering.nameless with nameless | nameless <;> rw [nameless] <;> trivial

private theorem breaks_of_objects {label : Label} {children : List Node} {gathering : Gathering}
    (planned : label.gathering? children.length = some gathering) {broken : Violation}
    {table : SymbolTable}
    (objected : gathering.position.Objects (gathering.operands children) broken table) :
    (Node.mk label children).Breaks broken table := by
  cases position : gathering.position with
  | plain =>
      rw [position] at objected
      exact objected.elim
  | value =>
      rw [position] at objected
      obtain ⟨child, member, name, named, unbound, rfl⟩ := objected
      cases Label.eq_genValue_of_gathering planned position
      exact ⟨rfl, ⟨child, gathering.operands_subset children member, named⟩, unbound⟩
  | arm subject => exact absurd position (gathering.noCase subject)

private theorem blames_gather {children : List Node}
    (blamed : ∀ child ∈ children, (visit child).Blames (Node.OneBreaks child.walk))
    {label : Label} {gathering : Gathering}
    (planned : label.gathering? children.length = some gathering) :
    (gather gathering label.kind children).Blames
      (Node.OneBreaks (Node.mk label children).walk) := by
  have operands := fun child member => blamed child (gathering.operands_subset children member)
  have judged := fun types => (blames_judge gathering types ⟨label, children⟩).mono
    fun _ _ => Node.oneBreaks_of_root
  rw [gather]
  refine (blames_emit _).bind fun _ => (blames_count _).bind fun _ => ?_
  split
  · exact blames_malformed _
  · refine Blames.bind (Blames.mono (blames_visitEach operands _ _ _) ?_) judged
    rintro broken table ((found | objected) | ⟨rfl, -⟩)
    · rw [← Node.walkBelow_of_gathering planned] at found
      exact Node.oneBreaks_of_below found
    · exact Node.oneBreaks_of_root (breaks_of_objects planned objected)
    · exact Node.oneBreaks_of_root trivial

private theorem blames_assignStmt {children : List Node}
    (blamed : ∀ child ∈ children, (visit child).Blames (Node.OneBreaks child.walk)) :
    (visit ⟨.assignStmt, children⟩).Blames
      (Node.OneBreaks (Node.mk .assignStmt children).walk) := by
  rw [visit_assignStmt]
  refine (blames_emit _).bind fun _ => blames_identifierAt_bind _ _ fun name named => ?_
  refine (blames_lookup name).bind fun target => ?_
  rw [assignValue]
  cases present : children[1]? with
  | none => exact blames_malformed _
  | some value =>
      have only : Node.walkBelow .assignStmt 0 children = value.walk := by
        rw [Node.walkBelow_assignStmt, present]
        rfl
      have below := blamed value (List.mem_of_getElem? present)
      rw [← only] at below
      refine Blames.bind (Blames.mono below fun _ _ => Node.oneBreaks_of_below) fun type => ?_
      exact blames_require _ fun _ table => Node.oneBreaks_of_root ⟨rfl, named⟩

/-- The type switched on is still that of the subject when one of the arms is refused. -/
theorem blames_switchStmt {children : List Node}
    (blamed : ∀ child ∈ children, (visit child).Blames (Node.OneBreaks child.walk)) :
    (visit ⟨.switchStmt, children⟩).Blames
      (Node.OneBreaks (Node.mk .switchStmt children).walk) := by
  have arms := fun child member => blamed child (List.mem_of_mem_tail member)
  rw [visit_switchStmt]
  refine (blames_emit _).bind fun _ => blames_identifierAt_bind _ _ fun name named => ?_
  intro walk broken after stopped
  rw [lookup_bind_apply, switchArms] at stopped
  cases fit : (walk.session.symbols.lookup name).filter Ty.isSwitchable with
  | none =>
      rw [fit] at stopped
      cases stopped
      refine Node.oneBreaks_of_root ⟨rfl, named, fun type bound => ?_⟩
      have unfit := Option.filter_eq_none_iff.mp fit type bound
      exact not_or.mp (mt Ty.isSwitchable_iff.mpr unfit)
  | some subject =>
      obtain ⟨bound, switchable⟩ := Option.filter_eq_some_iff.mp fit
      rw [fit] at stopped
      change (visitEach (.arm subject) .any [] children.tail >>= fun _ => pure Ty.unknown) walk =
        _ at stopped
      have permits := Walk.permits_keepsBindings
      have kept := Along.bind permits (visitEach_keepsBindings children.tail (.arm subject) .any [])
        (fun _ => along_pure permits Ty.unknown) walk
      rw [stopped] at kept
      have blame := (blames_visitEach arms (.arm subject) .any []).bind
        (fun _ => blames_pure Ty.unknown) walk broken after stopped
      rcases blame with (found | objected) | ⟨-, earlier, type, refused⟩
      · rw [← Node.walkBelow_switchStmt_tail subject] at found
        exact Node.oneBreaks_of_below found
      · obtain ⟨arm, member, label, isCase, labelled, misfits, rfl⟩ := objected
        exact Node.oneBreaks_of_root ⟨rfl, name, subject, named, kept.lookup bound,
          Ty.isSwitchable_iff.mp switchable, ⟨arm, member, isCase, labelled⟩, misfits switchable⟩
      · cases refused

private theorem blames_visit_of_children (label : Label) (children : List Node)
    (blamed : ∀ child ∈ children, (visit child).Blames (Node.OneBreaks child.walk)) :
    (visit ⟨label, children⟩).Blames (Node.OneBreaks (Node.mk label children).walk) := by
  cases planned : label.gathering? children.length with
  | some gathering =>
      rw [visit_of_gathering planned]
      exact blames_gather blamed planned
  | none =>
      cases label with
      | program | caseStmt =>
          rw [visit]
          exact (blames_emit _).bind fun _ => blames_malformed _
      | declaration typeName =>
          rw [visit]
          refine (blames_emit _).bind fun _ => Blames.bind ?_ fun _ => blames_pure _
          exact (blames_declareVariable typeName children).mono fun _ _ =>
            Node.oneBreaks_of_root
      | enumStmt =>
          rw [visit]
          refine (blames_emit _).bind fun _ => Blames.bind ?_ fun _ => blames_pure _
          exact (blames_declareEnum children).mono fun _ _ =>
            Node.oneBreaks_of_root
      | assignStmt => exact blames_assignStmt blamed
      | switchStmt => exact blames_switchStmt blamed
      | boolValue _ | intValue _ | identifier _ =>
          rw [visit]
          exact (blames_emit _).bind fun _ => blames_pure _
      | boolExpr tokens | notExpr tokens | unaExpr tokens => cases tokens <;> cases planned
      | _ => cases planned

theorem blames_visit (node : Node) : (visit node).Blames (Node.OneBreaks node.walk) :=
  Node.childrenInduction blames_visit_of_children node

end Check

/-- A program is refused for a violation only because of a node that the walk has reached, and what
the violation says of this node is true of the table that the run leaves behind. -/
theorem violation_is_true {session : Session} {program : Node} {broken : Violation}
    (refused : (session.check program).outcome = .error (.violation broken)) :
    ∃ node ∈ program.walked, node.Breaks broken (session.check program).session.symbols := by
  revert refused
  refine session.check_cases program ?_ ?_ ?_
  · intro node other refused
    cases refused
  · intro items fault reached stopped refused
    cases refused
    have blamed := Check.blames_visitEach (fun item (_ : item ∈ items) => Check.blames_visit item)
    rcases blamed .plain .any [] _ broken reached stopped with
      (found | objected) | ⟨-, earlier, type, refused⟩
    · exact found
    · exact objected.elim
    · cases refused
  · intro items types reached done refused
    cases refused

/-- A switch inside a loop has a fitting case and one whose label is a number. -/
def Node.signals : Node :=
  .program [.enumStmt "light" ["red", "green"], .enumDeclaration "light" "lamp",
    .stmt (.whileStmt (.expr (.boolean true)) [.block [.stmt (.switch "lamp"
      [.case (.ident "green") [], .case (.intLiteral 3) []])]])]

theorem violation_in_signals_is_true :
    (Session.check {} .signals).outcome =
      .error (.violation (.invalidCaseType (.integer 3))) ∧
    ∃ node ∈ Node.signals.walked, node.Breaks (.invalidCaseType (.integer 3))
      (Session.check {} .signals).session.symbols := by
  have refused : (Session.check {} .signals).outcome =
      .error (.violation (.invalidCaseType (.integer 3))) := by decide +kernel
  exact ⟨refused, violation_is_true refused⟩

end TreeCheck
