import TreeCheck.Node.Build
import TreeCheck.Proofs.Renaming

/-!
# Analysis commutes with renaming

Two steps correspond under a renaming when the second, started from a renamed walk, ends as the
first does, up to the renaming. Every rule of the walk corresponds to itself on the renamed tree:
names are looked up, bound and compared with the keywords, and nothing else is done with them.
-/

set_option autoImplicit false

namespace TreeCheck

theorem Position.walks_rename (mapping : Renaming) (position : Position) (label : Label) :
    position.walks (label.rename mapping) = position.walks label := by
  cases position <;> cases label <;> rfl

namespace Check

/-- From a renamed walk, `renamed` ends as `step` does from the walk, up to the renaming. -/
def RenamesTo {α : Type} (mapping : Renaming) (step renamed : Check α) : Prop :=
  ∀ walk : Walk, renamed (walk.rename mapping) =
    ((step walk).1.mapError (Fault.rename mapping), (step walk).2.rename mapping)

variable (mapping : Renaming)

theorem renamesTo_pure {α : Type} (value : α) :
    (pure value : Check α).RenamesTo mapping (pure value) :=
  fun _ => rfl

private theorem renamesTo_reject {α : Type} (broken : Violation) :
    (reject broken : Check α).RenamesTo mapping (reject (broken.rename mapping)) :=
  fun _ => rfl

theorem renamesTo_malformed {α : Type} (shape : Malformed) :
    (malformed shape : Check α).RenamesTo mapping (malformed shape) :=
  fun _ => rfl

theorem renamesTo_emit (event : Event) :
    (emit event).RenamesTo mapping (emit (event.rename mapping)) := by
  intro walk
  simp [emit, Walk.rename, Except.mapError]

theorem renamesTo_count (update : Metrics → Metrics) :
    (count update).RenamesTo mapping (count update) :=
  fun _ => rfl

theorem renamesTo_lookup (name : String) :
    (lookup name).RenamesTo mapping (lookup (mapping name)) := by
  intro walk
  rw [lookup_apply, lookup_apply]
  exact congrArg (fun found => (Except.ok found, walk.rename mapping))
    (walk.session.symbols.lookup_rename mapping name)

theorem renamesTo_declare (name : String) (type : Ty) :
    (declare name type).RenamesTo mapping (declare (mapping name) type) := by
  intro walk
  have declared : (walk.rename mapping).session.symbols.declare (mapping name) type = _ :=
    walk.session.symbols.declare_rename mapping name type
  rw [declare, declare, declared]
  cases walk.session.symbols.declare name type <;> rfl

variable {mapping}

theorem RenamesTo.bind {α β : Type} {step renamed : Check α} {next nextRenamed : α → Check β}
    (corresponds : step.RenamesTo mapping renamed)
    (continued : ∀ value, (next value).RenamesTo mapping (nextRenamed value)) :
    (step >>= next).RenamesTo mapping (renamed >>= nextRenamed) := by
  intro walk
  rw [bind_apply, corresponds walk, bind_apply]
  rcases step walk with ⟨fault | value, reached⟩
  · rfl
  · exact continued value reached

/-- A step may look at the whole session as long as it does the same after a renaming. -/
theorem RenamesTo.current_bind {α : Type} {next nextRenamed : Session → Check α}
    (continued : ∀ session,
      (next session).RenamesTo mapping (nextRenamed (session.rename mapping))) :
    (current >>= next).RenamesTo mapping (current >>= nextRenamed) :=
  fun walk => continued walk.session walk

theorem RenamesTo.identifier_bind {α : Type} {next nextRenamed : String → Check α}
    (parent : Kind) (index : Nat) (child : Node)
    (continued : ∀ name, (next name).RenamesTo mapping (nextRenamed (mapping name))) :
    (identifier parent index child >>= next).RenamesTo mapping
      (identifier parent index (child.rename mapping) >>= nextRenamed) := by
  rw [identifier, identifier, Node.identifier?_rename, Node.kind_rename]
  cases child.identifier? with
  | none => exact renamesTo_malformed mapping (.notIdentifier parent index child.kind)
  | some name => exact continued name

theorem RenamesTo.identifierAt_bind {α : Type} {next nextRenamed : String → Check α}
    (parent : Kind) (children : List Node) (index : Nat)
    (continued : ∀ name, (next name).RenamesTo mapping (nextRenamed (mapping name))) :
    (identifierAt parent children index >>= next).RenamesTo mapping
      (identifierAt parent (children.map (Node.rename mapping)) index >>= nextRenamed) := by
  rw [identifierAt, identifierAt, List.getElem?_map]
  cases children[index]? with
  | none => exact renamesTo_malformed mapping (.missingChild parent index)
  | some child => exact RenamesTo.identifier_bind parent index child continued

theorem renamesTo_require {α : Type} {condition : Prop} [Decidable condition] (value : α)
    (broken : Violation) :
    (if condition then pure value else reject broken : Check α).RenamesTo mapping
      (if condition then pure value else reject (broken.rename mapping)) := by
  split
  · exact renamesTo_pure mapping value
  · exact renamesTo_reject mapping broken

theorem renamesTo_resolve (name : String) :
    (resolve name).RenamesTo mapping (resolve (mapping name)) := by
  refine (renamesTo_lookup mapping name).bind fun found => ?_
  cases found with
  | none => exact renamesTo_reject mapping (.undefinedIdentifier name)
  | some type => exact renamesTo_pure mapping type

private theorem renamesTo_caseLabel (subject : Ty) (children : List Node) :
    (caseLabel subject children).RenamesTo mapping
      (caseLabel subject (children.map (Node.rename mapping))) := by
  cases children with
  | nil => exact renamesTo_malformed mapping _
  | cons label body =>
      rcases label with ⟨label, below⟩
      rw [List.map_cons, Node.rename_mk]
      cases label with
      | identifier name =>
          exact (renamesTo_lookup mapping name).bind fun _ =>
            renamesTo_require _ (.invalidCaseType (.identifier name))
      | intValue value => exact renamesTo_require _ (.invalidCaseType (.integer value))
      | _ => exact renamesTo_malformed mapping _

/-! ## Declarations -/

private theorem renamesTo_declareVariable (typeName : Option String) (children : List Node) :
    (declareVariable typeName children).RenamesTo mapping
      (declareVariable (typeName.map mapping) (children.map (Node.rename mapping))) := by
  rw [declareVariable, declareVariable, List.length_map]
  split
  · refine .identifierAt_bind _ _ _ fun enumType => .identifierAt_bind _ _ _ fun name => ?_
    refine .current_bind fun session => ?_
    simp only [Session.rename, SymbolTable.isTypeName_rename, SymbolTable.declaredType_rename]
    split
    · exact (renamesTo_emit mapping _).bind fun _ => renamesTo_declare mapping name _
    · exact renamesTo_reject mapping (.unknownDeclaredType name enumType)
  · refine .identifierAt_bind _ _ _ fun name => .current_bind fun session => ?_
    have same : ((typeName.map mapping).map (session.rename mapping).symbols.declaredType).getD
        .unknown = (typeName.map session.symbols.declaredType).getD .unknown := by
      cases typeName with
      | none => rfl
      | some typeName => exact session.symbols.declaredType_rename mapping typeName
    simp only [same]
    exact (renamesTo_emit mapping _).bind fun _ => renamesTo_declare mapping name _

private theorem renamesTo_declareValues (index : Nat) (children : List Node) :
    (declareValues index children).RenamesTo mapping
      (declareValues index (children.map (Node.rename mapping))) := by
  induction children generalizing index with
  | nil => exact renamesTo_pure mapping ()
  | cons child rest ih =>
      rw [List.map_cons, declareValues, declareValues]
      exact .identifier_bind _ _ _ fun name =>
        (renamesTo_declare mapping name _).bind fun _ => ih (index + 1)

private theorem renamesTo_declareEnum (children : List Node) :
    (declareEnum children).RenamesTo mapping
      (declareEnum (children.map (Node.rename mapping))) := by
  cases children with
  | nil => exact renamesTo_malformed mapping _
  | cons first values =>
      rw [List.map_cons, declareEnum, declareEnum, List.length_map]
      refine .identifier_bind _ _ _ fun typeName => (renamesTo_count mapping _).bind fun _ => ?_
      refine (renamesTo_emit mapping (.declareEnum typeName values.length)).bind fun _ => ?_
      exact (renamesTo_declare mapping typeName _).bind fun _ => renamesTo_declareValues 1 values

/-! ## The walk -/

private theorem renamesTo_read {child : Node}
    (corresponds : (visit child).RenamesTo mapping (visit (child.rename mapping)))
    (position : Position) :
    (read position child).RenamesTo mapping (read position (child.rename mapping)) := by
  revert corresponds
  refine read_cases position child (fun walks => ?_) (fun name below => ?_)
    fun subject below => ?_
  · intro corresponds
    have walksRenamed : position.walks (child.rename mapping).label = true := by
      rw [Node.label_rename, Position.walks_rename, walks]
    rw [read_of_walks walks, read_of_walks walksRenamed]
    exact corresponds
  · intro _
    rw [Node.rename_mk]
    exact renamesTo_resolve name
  · intro _
    rw [Node.rename_mk]
    exact renamesTo_caseLabel subject below

private theorem renamesTo_visitEach {children : List Node}
    (corresponds : ∀ child ∈ children,
      (visit child).RenamesTo mapping (visit (child.rename mapping)))
    (position : Position) (admitted : Admission) (earlier : List Ty) :
    (visitEach position admitted earlier children).RenamesTo mapping
      (visitEach position admitted earlier (children.map (Node.rename mapping))) := by
  induction children generalizing earlier with
  | nil =>
      rw [List.map_nil, visitEach_nil]
      exact renamesTo_pure mapping earlier
  | cons child rest ih =>
      obtain ⟨first, others⟩ := List.forall_mem_cons.mp corresponds
      rw [List.map_cons, visitEach_cons, visitEach_cons]
      refine (renamesTo_read first position).bind fun type => ?_
      split
      · exact ih others (earlier ++ [type])
      · exact renamesTo_reject mapping .invalidExpressionType

private theorem renamesTo_judge (gathering : Gathering) (types : List Ty) :
    (judge gathering types).RenamesTo mapping (judge gathering types) := by
  refine (renamesTo_count mapping _).bind fun _ => ?_
  split
  · exact renamesTo_pure mapping _
  · have unnamed : gathering.objection.rename mapping = gathering.objection := by
      rcases gathering.nameless with same | same <;> rw [same] <;> rfl
    have rejected := renamesTo_reject (α := Ty) mapping gathering.objection
    rw [unnamed] at rejected
    exact rejected

private theorem renamesTo_gather {children : List Node}
    (corresponds : ∀ child ∈ children,
      (visit child).RenamesTo mapping (visit (child.rename mapping)))
    (gathering : Gathering) (kind : Kind) :
    (gather gathering kind children).RenamesTo mapping
      (gather gathering kind (children.map (Node.rename mapping))) := by
  rw [gather, gather, List.length_map, List.isEmpty_map, Gathering.operands_map]
  refine (renamesTo_emit mapping (.visit kind children.length)).bind fun _ => ?_
  refine (renamesTo_count mapping _).bind fun _ => ?_
  split
  · exact renamesTo_malformed mapping _
  · have read := fun child member =>
      corresponds child (gathering.operands_subset children member)
    exact (renamesTo_visitEach read _ _ _).bind fun types => renamesTo_judge gathering types

private theorem renamesTo_assignValue {children : List Node}
    (corresponds : ∀ child ∈ children,
      (visit child).RenamesTo mapping (visit (child.rename mapping)))
    (name : String) (target : Option Ty) :
    (assignValue children name target).RenamesTo mapping
      (assignValue (children.map (Node.rename mapping)) (mapping name) target) := by
  rw [assignValue, assignValue, List.getElem?_map]
  cases found : children[1]? with
  | none => exact renamesTo_malformed mapping _
  | some value =>
      exact (corresponds value (List.mem_of_getElem? found)).bind fun type =>
        renamesTo_require _ (.invalidAssignmentType name)

private theorem renamesTo_switchArms {children : List Node}
    (corresponds : ∀ child ∈ children,
      (visit child).RenamesTo mapping (visit (child.rename mapping)))
    (name : String) (subject : Option Ty) :
    (switchArms children name subject).RenamesTo mapping
      (switchArms (children.map (Node.rename mapping)) (mapping name) subject) := by
  rw [switchArms, switchArms, ← List.map_tail]
  split
  · exact renamesTo_reject mapping (.invalidSwitchType name)
  · have arms := fun child member => corresponds child (List.mem_of_mem_tail member)
    exact (renamesTo_visitEach arms _ _ _).bind fun _ => renamesTo_pure mapping _

private theorem renamesTo_of_children (label : Label) (children : List Node)
    (corresponds : ∀ child ∈ children,
      (visit child).RenamesTo mapping (visit (child.rename mapping))) :
    (visit ⟨label, children⟩).RenamesTo mapping
      (visit ((Node.mk label children).rename mapping)) := by
  have visited := renamesTo_emit mapping (.visit label.kind children.length)
  rw [Node.rename_mk]
  cases planned : label.gathering? children.length with
  | some gathering =>
      have plannedRenamed : label.gathering? (children.map (Node.rename mapping)).length =
          some gathering := by
        rw [List.length_map, planned]
      rw [Label.rename_of_gathering mapping planned, visit_of_gathering planned,
        visit_of_gathering plannedRenamed]
      exact renamesTo_gather corresponds gathering label.kind
  | none =>
      cases label with
      | program | caseStmt =>
          dsimp only [Label.rename]
          rw [visit, visit, List.length_map]
          exact visited.bind fun _ => renamesTo_malformed mapping _
      | declaration typeName =>
          dsimp only [Label.rename]
          rw [visit, visit, List.length_map]
          exact visited.bind fun _ => (renamesTo_declareVariable typeName children).bind
            fun _ => renamesTo_pure mapping _
      | enumStmt =>
          dsimp only [Label.rename]
          rw [visit, visit, List.length_map]
          exact visited.bind fun _ => (renamesTo_declareEnum children).bind
            fun _ => renamesTo_pure mapping _
      | assignStmt =>
          dsimp only [Label.rename]
          rw [visit_assignStmt, visit_assignStmt, List.length_map]
          refine visited.bind fun _ => .identifierAt_bind _ _ _ fun name => ?_
          exact (renamesTo_lookup mapping name).bind fun target =>
            renamesTo_assignValue corresponds name target
      | switchStmt =>
          dsimp only [Label.rename]
          rw [visit_switchStmt, visit_switchStmt, List.length_map]
          refine visited.bind fun _ => .identifierAt_bind _ _ _ fun name => ?_
          exact (renamesTo_lookup mapping name).bind fun subject =>
            renamesTo_switchArms corresponds name subject
      | boolValue _ | intValue _ | identifier _ =>
          dsimp only [Label.rename]
          rw [visit, visit, List.length_map]
          exact visited.bind fun _ => renamesTo_pure mapping _
      | boolExpr tokens | notExpr tokens | unaExpr tokens => cases tokens <;> cases planned
      | _ => cases planned

private theorem renamesTo_visit (node : Node) :
    (visit node).RenamesTo mapping (visit (node.rename mapping)) :=
  Node.childrenInduction renamesTo_of_children node

private theorem renamesTo_program (program : Node) :
    (Check.program program).RenamesTo mapping (Check.program (program.rename mapping)) := by
  rcases program with ⟨label, items⟩
  have size := Node.size_rename mapping ⟨label, items⟩
  rw [Node.rename_mk] at size ⊢
  cases label with
  | program =>
      rw [Check.program, Check.program]
      dsimp only [Label.rename, Node.label_mk, Node.children_mk] at size ⊢
      rw [size]
      refine (renamesTo_emit mapping (.checking _)).bind fun _ => ?_
      refine (renamesTo_visitEach (fun item _ => renamesTo_visit item) _ _ _).bind fun _ => ?_
      refine .current_bind fun session => ?_
      dsimp only [Session.rename]
      rw [SymbolTable.variableCount_rename, SymbolTable.size_rename]
      refine (renamesTo_count mapping _).bind fun _ => .current_bind fun counted => ?_
      exact (renamesTo_emit mapping (.wellTyped _ _ _)).bind fun _ => renamesTo_pure mapping _
  | _ => exact renamesTo_malformed mapping _

end Check

/-- A renamed program runs in a renamed session as the program does in the session. -/
theorem Session.check_rename (mapping : Renaming) (session : Session) (program : Node) :
    (session.rename mapping).check (program.rename mapping) =
      (session.check program).rename mapping := by
  have run : Check.program (program.rename mapping) ⟨session.rename mapping, []⟩ = _ :=
    Check.renamesTo_program program ⟨session, []⟩
  rw [check, run]
  rfl

/-- A renamed program is accepted with the same metrics, or refused for the same fault with its
names renamed, and leaves the renamed table. -/
theorem analyze_rename (mapping : Renaming) (program : Node) :
    (∀ metrics, analyze program = .ok metrics →
      analyze (program.rename mapping) = .ok metrics) ∧
    (∀ fault, analyze program = .error fault →
      analyze (program.rename mapping) = .error (fault.rename mapping)) ∧
    (Session.check {} (program.rename mapping)).session.symbols.entries =
      (Session.check {} program).session.symbols.entries.map
        fun entry => (mapping entry.1, entry.2) := by
  have renamed : Session.check {} (program.rename mapping) =
      (Session.check {} program).rename mapping :=
    Session.check_rename mapping {} program
  have outcome : analyze (program.rename mapping) =
      (analyze program).mapError (Fault.rename mapping) :=
    congrArg Run.outcome renamed
  refine ⟨?_, ?_, ?_⟩
  · intro metrics accepted
    rw [outcome, accepted]
    rfl
  · intro fault refused
    rw [outcome, refused]
    rfl
  · rw [renamed]
    rfl

/-- The name of an enumeration and the name of its value are exchanged. -/
theorem analyze_rename_exchange :
    analyze (.program [.enumStmt "light" ["red"], .declaration "num" "red"]) =
      .error (.violation (.multipleDeclaration "red")) ∧
    analyze (.program [.enumStmt "red" ["light"], .declaration "num" "light"]) =
      .error (.violation (.multipleDeclaration "light")) := by
  have refused : analyze (.program [.enumStmt "light" ["red"], .declaration "num" "red"]) =
      .error (.violation (.multipleDeclaration "red")) := by decide +kernel
  have renamed := (analyze_rename (.exchange "red" "light" (by decide)) _).2.1 _ refused
  exact ⟨refused, renamed⟩

end TreeCheck
