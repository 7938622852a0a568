import TreeCheck.Proofs.Script

/-!
# Following a script

A step follows a script when it carries out an initial part of it, and all of it in case of success.
A step that stops because a name is already bound stops right where the script declares that name.
The walk of a tree follows the script of the tree.
-/

set_option autoImplicit false

namespace TreeCheck

/-- The kind and the number of children of a visited node. -/
def Event.visited? : Event → Option (Kind × Nat)
  | .visit kind children => some (kind, children)
  | _ => none

/-- The part of a script that has been carried out by what a walk has gained. The walk itself does
not count variables, the bindings tell their number. -/
def Growth.script (growth : Growth) : Script where
  declared := growth.bindings.map fun binding => (binding.1, binding.2.origin)
  counts :=
    { growth.counts with vars := growth.bindings.countP fun binding => binding.2.isVariable }
  visited := growth.events.filterMap Event.visited?

@[simp] theorem Growth.script_add (earlier later : Growth) :
    (earlier + later).script = earlier.script + later.script := by
  ext1
  · simp [script]
  · ext <;> simp [script]
  · simp [script]

theorem Growth.script_binding (name : String) (type : Ty) :
    ({ bindings := [(name, type)] } : Growth).script = .declaring name type.origin := by
  cases type <;> rfl

theorem SymbolTable.declaredType_origin (table : SymbolTable) (typeName : String) :
    (table.declaredType typeName).origin = .declaration := by
  rw [declaredType, Ty.ofKeyword?]
  split
  · rename_i found
    split at found
    · cases found
      rfl
    · split at found
      · cases found
        rfl
      · cases found
  · split <;> rfl

/-- What may be left of a script when a step ends with this outcome, where these names are bound. -/
def Script.Leaves {α : Type} (rest : Script) (outcome : Except Fault α) (names : List String) :
    Prop :=
  match outcome with
  | .ok _ => rest = 0
  | .error fault => ∀ name, fault = .violation (.multipleDeclaration name) →
      name ∈ names ∧ ∃ origin later, rest.declared = (name, origin) :: later

namespace Check

/-- The step carries out an initial part of the script, and all of it in case of success. -/
def Follows {α : Type} (step : Check α) (script : Script) : Prop :=
  ∀ walk : Walk, ∃ (growth : Growth) (rest : Script),
    walk.Grows growth (step walk).2 ∧ growth.script + rest = script ∧
      rest.Leaves (step walk).1 (step walk).2.session.symbols.names

theorem follows_pure {α : Type} (value : α) : (pure value : Check α).Follows 0 :=
  fun walk => ⟨0, 0, .refl walk, rfl, rfl⟩

theorem follows_emit (event : Event) :
    (emit event).Follows { visited := event.visited?.toList } := by
  intro walk
  refine ⟨{ events := [event] }, 0, emit_grows event walk, ?_, rfl⟩
  rw [add_zero]
  cases event <;> rfl

theorem follows_count {update : Metrics → Metrics} {counts : Metrics}
    (adds : ∀ metrics, update metrics = metrics + counts) (variableless : counts.vars = 0) :
    (count update).Follows { counts } := by
  intro walk
  refine ⟨{ counts }, 0, count_grows adds walk, ?_, rfl⟩
  rw [add_zero]
  ext1
  · rfl
  · exact Metrics.ext variableless.symm rfl rfl rfl rfl
  · rfl

theorem follows_lookup (name : String) : (lookup name).Follows 0 :=
  fun walk => ⟨0, 0, .refl walk, rfl, rfl⟩

theorem follows_current : current.Follows 0 :=
  fun walk => ⟨0, 0, .refl walk, rfl, rfl⟩

/-- A step that stops at once follows any script, unless it claims that a name is already bound. -/
theorem follows_fail {α : Type} {fault : Fault} (script : Script)
    (other : ∀ name, fault ≠ .violation (.multipleDeclaration name)) :
    (fail fault : Check α).Follows script :=
  fun walk => ⟨0, script, .refl walk, zero_add script, fun name same => absurd same (other name)⟩

theorem follows_malformed {α : Type} (shape : Malformed) (script : Script) :
    (malformed shape : Check α).Follows script :=
  follows_fail script fun _ same => by cases same

theorem follows_declare (name : String) (type : Ty) :
    (declare name type).Follows (.declaring name type.origin) := by
  intro walk
  rcases declare_cases name type walk with ⟨bound, stopped⟩ | ⟨symbols, extended, declared⟩
  · rw [stopped]
    refine ⟨0, _, .refl walk, zero_add _, ?_⟩
    rintro _ ⟨⟩
    exact ⟨bound, _, _, rfl⟩
  · rw [declared]
    exact ⟨{ bindings := [(name, type)] }, 0, declared_grows extended,
      by rw [add_zero, Growth.script_binding], rfl⟩

private theorem follows_declare_variable (name : String) {type : Ty}
    (origin : type.origin = .declaration) :
    (declare name type).Follows
      { declared := [(name, .declaration)], counts := { vars := 1 } } := by
  have followed := follows_declare name type
  rw [origin] at followed
  exact followed

theorem Follows.bind_of_run {α β : Type} {step : Check α} {next : α → Check β}
    {first second : Script} (followed : step.Follows first)
    (continued : ∀ walk value after, step walk = (.ok value, after) → (next value).Follows second) :
    (step >>= next).Follows (first + second) := by
  intro walk
  obtain ⟨growth, rest, grows, parts, left⟩ := followed walk
  cases run : step walk with
  | mk outcome reached =>
      rw [run] at grows left
      cases outcome with
      | error fault =>
          rw [bind_of_error next run]
          refine ⟨growth, rest + second, grows, by rw [← parts, add_assoc], fun name same => ?_⟩
          obtain ⟨bound, origin, later, next⟩ := left name same
          exact ⟨bound, origin, later ++ second.declared, by rw [Script.add_declared, next]; rfl⟩
      | ok value =>
          obtain ⟨more, remains, grown, partsNext, leftNext⟩ :=
            continued walk value reached run reached
          rw [bind_of_ok next run]
          cases left
          refine ⟨growth + more, remains, grows.trans grown, ?_, leftNext⟩
          rw [Growth.script_add, add_assoc, partsNext, ← parts, add_zero]

theorem Follows.bind {α β : Type} {step : Check α} {next : α → Check β} {first second : Script}
    (followed : step.Follows first) (continued : ∀ value, (next value).Follows second) :
    (step >>= next).Follows (first + second) :=
  followed.bind_of_run fun _ value _ _ => continued value

/-- A step that does nothing to be found in a script may precede any other. -/
theorem Follows.skip {α β : Type} {step : Check α} {next : α → Check β} {script : Script}
    (idle : step.Follows 0) (continued : ∀ value, (next value).Follows script) :
    (step >>= next).Follows script := by
  rw [← zero_add script]
  exact idle.bind continued

theorem Follows.zero_add {α : Type} {step : Check α} {script : Script}
    (followed : step.Follows script) : step.Follows (0 + script) := by
  rw [AddZeroClass.zero_add]
  exact followed

theorem Follows.map {α β : Type} {step : Check α} {script : Script} (followed : step.Follows script)
    (result : α → β) : (step >>= fun value => pure (result value)).Follows script := by
  rw [← add_zero script]
  exact followed.bind fun value => follows_pure (result value)

theorem follows_require {α : Type} {condition : Prop} [Decidable condition] (value : α)
    {broken : Violation} (other : ∀ name, broken ≠ .multipleDeclaration name) :
    (if condition then pure value else reject broken : Check α).Follows 0 := by
  split
  · exact follows_pure value
  · exact follows_fail 0 fun name same => other name (Fault.violation.inj same)

private theorem follows_identifier_bind {α : Type} (parent : Kind) (index : Nat) {child : Node}
    {next : String → Check α} {script : Script}
    (continued : ∀ name, child.identifier? = some name → (next name).Follows script) :
    (identifier parent index child >>= next).Follows script := by
  rw [identifier]
  cases found : child.identifier? with
  | none => exact follows_malformed (.notIdentifier parent index child.kind) script
  | some name => exact continued name found

private theorem follows_identifierAt_bind {α : Type} (parent : Kind) (children : List Node)
    (index : Nat)
    {next : String → Check α} {script : Script}
    (continued : ∀ name, (next name).Follows script) :
    (identifierAt parent children index >>= next).Follows script := by
  rw [identifierAt]
  cases children[index]? with
  | none => exact follows_malformed (.missingChild parent index) script
  | some child => exact follows_identifier_bind parent index fun name _ => continued name

theorem follows_resolve (name : String) : (resolve name).Follows 0 := by
  refine (follows_lookup name).skip fun found => ?_
  cases found with
  | none => exact follows_fail 0 fun _ same => by cases same
  | some type => exact follows_pure type

private theorem follows_caseLabel (subject : Ty) (children : List Node) :
    (caseLabel subject children).Follows 0 := by
  cases children with
  | nil => exact follows_malformed _ 0
  | cons label body =>
      rw [caseLabel]
      split
      · exact (follows_lookup _).skip fun _ => follows_require _ fun _ same => by cases same
      · exact follows_require _ fun _ same => by cases same
      · exact follows_malformed _ 0

/-! ## Declarations -/

private theorem follows_declareVariable (typeName : Option String) (children : List Node) :
    (declareVariable typeName children).Follows
      { declared := (Node.mk (.declaration typeName) children).declares
        counts := (Node.mk (.declaration typeName) children).tally } := by
  rw [declareVariable]
  match children with
  | [] => exact follows_malformed _ _
  | [only] =>
      refine follows_identifier_bind _ _ fun name named => ?_
      refine follows_current.skip fun session => ?_
      refine (follows_emit _).skip fun _ => ?_
      have origin : ((typeName.map session.symbols.declaredType).getD .unknown).origin =
          .declaration := by
        cases typeName with
        | none => rfl
        | some typeName => exact session.symbols.declaredType_origin typeName
      rw [Node.declares, named]
      exact follows_declare_variable name origin
  | first :: second :: rest =>
      rw [if_pos (by simp)]
      refine follows_identifier_bind _ _ fun typeName _ => ?_
      refine follows_identifier_bind _ _ fun name named => ?_
      refine follows_current.skip fun session => ?_
      rw [Node.declares, named]
      dsimp only
      split
      · exact (follows_emit _).skip fun _ =>
          follows_declare_variable name (session.symbols.declaredType_origin typeName)
      · exact follows_fail _ fun _ same => by cases same

private theorem follows_declareValues (index : Nat) (children : List Node) :
    (declareValues index children).Follows
      { declared := (children.filterMap Node.identifier?).map (·, .enumValue) } := by
  induction children generalizing index with
  | nil =>
      rw [declareValues]
      exact follows_pure ()
  | cons child rest ih =>
      rw [declareValues]
      refine follows_identifier_bind _ _ fun name named => ?_
      rw [List.filterMap_cons_some named, List.map_cons]
      exact (follows_declare name .enumValue).bind fun _ => ih (index + 1)

private theorem follows_declareEnum (children : List Node) :
    (declareEnum children).Follows
      { declared := (Node.mk .enumStmt children).declares
        counts := (Node.mk .enumStmt children).tally } := by
  cases children with
  | nil => exact follows_malformed _ _
  | cons first values =>
      rw [declareEnum]
      refine follows_identifier_bind _ _ fun typeName named => ?_
      rw [Node.declares, named]
      exact (follows_count (fun metrics => metrics.addEnumValues_eq values.length) rfl).bind
        fun _ => (follows_emit _).skip fun _ =>
          (follows_declare typeName .enumType).bind fun _ => follows_declareValues 1 values

/-! ## The walk -/

private theorem follows_read {child : Node} (followed : (visit child).Follows (.ofNodes child.walk))
    (position : Position) :
    (read position child).Follows
      (.ofNodes (if position.walks child.label then child.walk else [])) := by
  refine read_cases position child (fun walks => ?_) (fun name below => ?_)
    fun subject below => ?_
  · rw [read_of_walks walks, if_pos walks]
    exact followed
  · exact follows_resolve name
  · exact follows_caseLabel subject below

theorem follows_visitEach {children : List Node}
    (followed : ∀ child ∈ children, (visit child).Follows (.ofNodes child.walk))
    (position : Position) (admitted : Admission) (earlier : List Ty) :
    (visitEach position admitted earlier children).Follows
      (.ofNodes (position.walked children)) := by
  induction children generalizing earlier with
  | nil =>
      rw [visitEach_nil]
      exact follows_pure earlier
  | cons child rest ih =>
      obtain ⟨first, others⟩ := List.forall_mem_cons.mp followed
      rw [visitEach_cons, Position.walked, List.flatMap_cons, Script.ofNodes_append]
      refine (follows_read first position).bind fun type => ?_
      split
      · exact ih others (earlier ++ [type])
      · exact follows_fail _ fun _ same => by cases same

/-- The script of a node: its visit, what its rule asks for, and the script of what is below. -/
theorem ofNodes_walk (label : Label) (children : List Node) :
    Script.ofNodes (Node.mk label children).walk =
      { visited := [(label.kind, children.length)] } +
        ({ declared := (Node.mk label children).declares
           counts := (Node.mk label children).tally } +
          Script.ofNodes (Node.walkBelow label 0 children)) := by
  rw [Node.walk, Script.ofNodes_cons, ← add_assoc]
  congr 1
  ext1 <;> simp [Node.kind]

section

variable {children : List Node}
  (followed : ∀ child ∈ children, (visit child).Follows (.ofNodes child.walk))

include followed

private theorem follows_gather {label : Label} {gathering : Gathering}
    (planned : label.gathering? children.length = some gathering) :
    (gather gathering label.kind children).Follows
      ({ visited := [(label.kind, children.length)] } +
        ({ counts := (Node.mk label children).tally } +
          .ofNodes (Node.walkBelow label 0 children))) := by
  obtain ⟨rest, counted, later⟩ := Node.tally_of_gathering planned
  have split : ({ counts := gathering.before + rest } : Script) =
      { counts := gathering.before } + { counts := rest } := rfl
  rw [counted, split, add_assoc, Script.counts_add_comm rest, Node.walkBelow_of_gathering planned,
    gather]
  refine (follows_emit _).bind fun _ =>
    (follows_count (fun _ => rfl) gathering.before_vars).bind fun _ => ?_
  have operands := fun child member => followed child (gathering.operands_subset children member)
  split
  · exact follows_malformed _ _
  · refine (follows_visitEach operands _ _ []).bind_of_run fun _ types _ done => ?_
    have length : types.length = (gathering.operands children).length := by
      simpa using length_of_visitEach done
    rw [← later types length, judge, ← add_zero (Script.mk _ _ _)]
    refine (follows_count (fun _ => rfl) (gathering.after_vars types)).bind fun _ => ?_
    cases gathering.conclude types with
    | some type => exact follows_pure type
    | none =>
        refine follows_fail 0 fun name same => ?_
        rcases gathering.nameless with objection | objection <;>
          · rw [objection] at same
            cases same

private theorem follows_assignValue (name : String) (target : Option Ty) :
    (assignValue children name target).Follows
      (.ofNodes (Node.walkBelow .assignStmt 0 children)) := by
  rw [assignValue, Node.walkBelow_assignStmt]
  cases found : children[1]? with
  | none => exact follows_malformed _ _
  | some value =>
      rw [Option.map_some, Option.getD_some, ← add_zero (Script.ofNodes _)]
      exact (followed value (List.mem_of_getElem? found)).bind fun _ =>
        follows_require _ fun _ same => by cases same

private theorem follows_switchArms (name : String) (subject : Option Ty) :
    (switchArms children name subject).Follows
      (.ofNodes (Node.walkBelow .switchStmt 0 children)) := by
  rw [switchArms]
  split
  · exact follows_fail _ fun _ same => by cases same
  · rename_i type _
    rw [Node.walkBelow_switchStmt_tail type]
    exact (follows_visitEach (fun child member => followed child (List.mem_of_mem_tail member))
      (.arm type) .any []).map _

end

private theorem follows_of_children (label : Label) (children : List Node)
    (followed : ∀ child ∈ children, (visit child).Follows (.ofNodes child.walk)) :
    (visit ⟨label, children⟩).Follows (.ofNodes (Node.mk label children).walk) := by
  rw [ofNodes_walk]
  cases planned : label.gathering? children.length with
  | some gathering =>
      rw [visit_of_gathering planned, Node.declares_of_gathering planned]
      exact follows_gather followed planned
  | none =>
      cases label with
      | program | caseStmt =>
          rw [visit]
          exact (follows_emit _).bind fun _ => follows_malformed _ _
      | declaration typeName =>
          rw [visit, Node.walkBelow_eq_nil fun _ _ _ => rfl, Script.ofNodes_nil, add_zero]
          exact (follows_emit _).bind fun _ => (follows_declareVariable typeName children).map _
      | enumStmt =>
          rw [visit, Node.walkBelow_eq_nil fun _ _ _ => rfl, Script.ofNodes_nil, add_zero]
          exact (follows_emit _).bind fun _ => (follows_declareEnum children).map _
      | assignStmt =>
          rw [visit_assignStmt]
          exact (follows_emit _).bind fun _ =>
            Follows.zero_add (follows_identifierAt_bind _ _ 0 fun name =>
              (follows_lookup name).skip fun target => follows_assignValue followed name target)
      | switchStmt =>
          rw [visit_switchStmt]
          exact (follows_emit _).bind fun _ =>
            Follows.zero_add (follows_identifierAt_bind _ _ 0 fun name =>
              (follows_lookup name).skip fun subject => follows_switchArms followed name subject)
      | boolValue _ | intValue _ | identifier _ =>
          rw [visit, Node.walkBelow_eq_nil fun _ _ _ => rfl]
          exact (follows_emit _).bind fun _ => follows_pure _
      | boolExpr tokens | notExpr tokens | unaExpr tokens => cases tokens <;> cases planned
      | _ => cases planned

theorem follows_visit (node : Node) : (visit node).Follows (.ofNodes node.walk) :=
  Node.childrenInduction follows_of_children node

end Check

end TreeCheck
