import TreeCheck.Proofs.Shape

/-!
# The types found in a walk

The walk of a tree forgets the types of inner nodes. The annotated walk follows the same rules and
returns with the type of a node the types of all nodes walked from it on, parents before children.
How a name is bound is left open: with `Check.declare` the annotated walk is the walk, and with an
operation that binds nothing it checks a tree against a fixed table.
-/

set_option autoImplicit false

namespace TreeCheck

/-! ## Rules as data -/

/-- What the rule of a node does. -/
inductive Rule
  | refuse (shape : Malformed)
  | constant (type : Ty)
  | declare (typeName : Option String)
  | enumerate
  | assign
  | switch
  | gather (gathering : Gathering)

/-- The rule of a label over so many children. -/
def Label.rule (label : Label) (arity : Nat) : Rule :=
  match label.gathering? arity with
  | some gathering => .gather gathering
  | none =>
    match label with
    | .program => .refuse .nestedProgram
    | .caseStmt => .refuse .strayCase
    | .boolValue _ => .constant .bool
    | .intValue _ => .constant .number
    | .declaration typeName => .declare typeName
    | .enumStmt => .enumerate
    | .assignStmt => .assign
    | .switchStmt => .switch
    | _ => .constant .unknown

theorem Label.rule_of_gathering {label : Label} {arity : Nat} {gathering : Gathering}
    (planned : label.gathering? arity = some gathering) : label.rule arity = .gather gathering := by
  unfold rule
  rw [planned]

/-! ## The annotated walk -/

/-- Walked nodes with their types. -/
abbrev Findings := List (Node × Ty)

namespace Check

section

variable (bind : String → Ty → Check Unit)

/-- Like `declareVariable`, for any way of binding names. -/
def bindVariable (typeName : Option String) (children : List Node) : Check Unit := do
  if children.length > 1 then
    let enumType ← identifierAt .declaration children 0
    let name ← identifierAt .declaration children 1
    let symbols := (← current).symbols
    if symbols.isTypeName enumType then
      emit (.declareVariable name (symbols.declaredType enumType))
      bind name (symbols.declaredType enumType)
    else
      reject (.unknownDeclaredType name enumType)
  else
    let name ← identifierAt .declaration children 0
    let symbols := (← current).symbols
    let type := (typeName.map symbols.declaredType).getD .unknown
    emit (.declareVariable name type)
    bind name type

def bindValues (index : Nat) : List Node → Check Unit
  | [] => return ()
  | child :: rest => do
    bind (← identifier .enumStmt index child) .enumValue
    bindValues (index + 1) rest

def bindEnum : List Node → Check Unit
  | [] => malformed (.missingChild .enumStmt 0)
  | first :: values => do
    let typeName ← identifier .enumStmt 0 first
    count (·.addEnumValues values.length)
    emit (.declareEnum typeName values.length)
    bind typeName .enumType
    bindValues bind 1 values

/-- The ways in which a rule may read the children of a node. -/
structure Below where
  /-- The value of an assignment, if it is there. -/
  value : Option (Check (Ty × Findings))
  arms : Ty → Check (List Ty × Findings)
  operands : Gathering → Check (List Ty × Findings)

/-- Follows a rule. Returns the type of the node, and what is found below it. -/
def follow (rule : Rule) (kind : Kind) (children : List Node) (below : Below) :
    Check (Ty × Findings) :=
  match rule with
  | .refuse shape => malformed shape
  | .constant type => return (type, [])
  | .declare typeName => do
    bindVariable bind typeName children
    return (.unknown, [])
  | .enumerate => do
    bindEnum bind children
    return (.unknown, [])
  | .assign => do
    let name ← identifierAt .assignStmt children 0
    let target ← lookup name
    match below.value with
    | none => malformed (.missingChild .assignStmt 1)
    | some value => do
      let read ← value
      if target.any (·.acceptsAssignment read.1) then return (.unknown, read.2)
      else reject (.invalidAssignmentType name)
  | .switch => do
    let name ← identifierAt .switchStmt children 0
    match (← lookup name).filter Ty.isSwitchable with
    | none => reject (.invalidSwitchType name)
    | some subject => do
      let read ← below.arms subject
      return (.unknown, read.2)
  | .gather gathering => do
    count (· + gathering.before)
    if gathering.needsChild && children.isEmpty then malformed (.missingChild kind 0)
    else do
      let read ← below.operands gathering
      let type ← judge gathering read.1
      return (type, read.2)

def note (node : Node) (read : Ty × Findings) : Ty × Findings :=
  (read.1, (node, read.1) :: read.2)

mutual

/-- Applies the rule of a node. Returns its type, and the types of the nodes walked from it on. -/
def annotate : Node → Check (Ty × Findings)
  | ⟨label, children⟩ => do
    emit (.visit label.kind children.length)
    note ⟨label, children⟩ <$> follow bind (label.rule children.length) label.kind children {
      value :=
        match children with
        | _ :: value :: _ => some (annotate value)
        | _ => none
      arms := fun subject =>
        match children with
        | _ :: arms => annotateEach (.arm subject) .any false [] arms
        | [] => pure ([], [])
      operands := fun gathering =>
        annotateEach gathering.position gathering.admitted gathering.onlyFirst [] children }
termination_by structural node => node

/-- Reads a list of children, or the first of them only. Returns their types after those in
`earlier`, and the types of all nodes walked. -/
def annotateEach (position : Position) (admitted : Admission) (onlyFirst : Bool)
    (earlier : List Ty) : List Node → Check (List Ty × Findings)
  | [] => return (earlier, [])
  | child :: rest =>
    (match position, child.label with
      | .value, .identifier name => (·, []) <$> resolve name
      | .arm subject, .caseStmt => (·, []) <$> caseLabel subject child.children
      | _, _ => annotate child) >>= fun first =>
    if admitted earlier first.1 then
      if onlyFirst then return (earlier ++ [first.1], first.2)
      else do
        let others ← annotateEach position admitted onlyFirst (earlier ++ [first.1]) rest
        return (others.1, first.2 ++ others.2)
    else reject .invalidExpressionType
termination_by structural children => children

end

def annotateRead (position : Position) (child : Node) : Check (Ty × Findings) :=
  match position, child.label with
  | .value, .identifier name => (·, []) <$> resolve name
  | .arm subject, .caseStmt => (·, []) <$> caseLabel subject child.children
  | _, _ => annotate bind child

def below (children : List Node) : Below where
  value := children[1]?.map (annotate bind)
  arms subject := annotateEach bind (.arm subject) .any false [] children.tail
  operands gathering :=
    annotateEach bind gathering.position gathering.admitted gathering.onlyFirst [] children

theorem annotate_mk (label : Label) (children : List Node) :
    annotate bind ⟨label, children⟩ = (do
      emit (.visit label.kind children.length)
      note ⟨label, children⟩ <$>
        follow bind (label.rule children.length) label.kind children (below bind children)) := by
  match children with
  | [] | [_] | _ :: _ :: _ => rfl

theorem annotateEach_nil (position : Position) (admitted : Admission) (onlyFirst : Bool)
    (earlier : List Ty) :
    annotateEach bind position admitted onlyFirst earlier [] = pure (earlier, []) := by
  rw [annotateEach]

theorem annotateEach_cons (position : Position) (admitted : Admission) (onlyFirst : Bool)
    (earlier : List Ty) (child : Node) (rest : List Node) :
    annotateEach bind position admitted onlyFirst earlier (child :: rest) = (do
      let first ← annotateRead bind position child
      if admitted earlier first.1 then
        if onlyFirst then return (earlier ++ [first.1], first.2)
        else do
          let others ← annotateEach bind position admitted onlyFirst (earlier ++ [first.1]) rest
          return (others.1, first.2 ++ others.2)
      else reject .invalidExpressionType) := by
  rcases child with ⟨label, below⟩
  cases position with
  | plain => rfl
  | value => cases label <;> rfl
  | arm subject => cases label <;> rfl

theorem annotateRead_of_walks {position : Position} {child : Node}
    (walks : position.walks child.label = true) :
    annotateRead bind position child = annotate bind child := by
  unfold annotateRead
  split
  · simp_all [Position.walks]
  · simp_all [Position.walks]
  · rfl

end

/-! ## The walk itself -/

theorem bindValues_declare (index : Nat) (children : List Node) :
    bindValues declare index children = declareValues index children := by
  induction children generalizing index with
  | nil => rfl
  | cons child rest ih => rw [bindValues, declareValues, ih]

theorem bindEnum_declare (children : List Node) :
    bindEnum declare children = declareEnum children := by
  cases children with
  | nil => rfl
  | cons first values => rw [bindEnum, declareEnum, bindValues_declare]

private theorem map_fst_annotateRead {child : Node}
    (same : Prod.fst <$> annotate declare child = visit child) (position : Position) :
    Prod.fst <$> annotateRead declare position child = read position child := by
  revert same
  refine read_cases position child (fun walks same => ?_) (fun name below _ => ?_)
    fun subject below _ => ?_
  · rw [annotateRead_of_walks declare walks, read_of_walks walks, same]
  · simp [annotateRead, read]
  · simp [annotateRead, read]

theorem map_fst_annotateEach {children : List Node}
    (same : ∀ child ∈ children, Prod.fst <$> annotate declare child = visit child)
    (position : Position) (admitted : Admission) (onlyFirst : Bool) (earlier : List Ty) :
    Prod.fst <$> annotateEach declare position admitted onlyFirst earlier children =
      visitEach position admitted earlier (if onlyFirst then children.take 1 else children) := by
  induction children generalizing earlier with
  | nil => simp [annotateEach_nil, visitEach_nil]
  | cons child rest ih =>
      obtain ⟨first, others⟩ := List.forall_mem_cons.mp same
      have listed : (if onlyFirst then (child :: rest).take 1 else child :: rest) =
          child :: if onlyFirst then [] else rest := by
        cases onlyFirst <;> simp
      rw [annotateEach_cons, listed, visitEach_cons, ← map_fst_annotateRead first position,
        map_bind, bind_map_left]
      refine bind_congr fun read => ?_
      split
      · cases onlyFirst with
        | true => simp [visitEach_nil]
        | false => simpa [map_bind] using ih others (earlier ++ [read.1])
      · rfl

private theorem map_fst_note (node : Node) (step : Check (Ty × Findings)) :
    Prod.fst <$> note node <$> step = Prod.fst <$> step := by
  rw [Functor.map_map]
  rfl

theorem map_fst_follow_declare (typeName : Option String) (kind : Kind) (children : List Node)
    (below : Below) :
    Prod.fst <$> follow declare (.declare typeName) kind children below = (do
      declareVariable typeName children
      return .unknown) := by
  rw [follow, map_bind]
  simp only [map_pure]
  rfl

private theorem map_fst_follow_enumerate (kind : Kind) (children : List Node) (below : Below) :
    Prod.fst <$> follow declare .enumerate kind children below = (do
      declareEnum children
      return .unknown) := by
  rw [follow, map_bind, bindEnum_declare]
  simp only [map_pure]

private theorem map_fst_follow_gather {gathering : Gathering} {children : List Node}
    (same : ∀ child ∈ children, Prod.fst <$> annotate declare child = visit child) (kind : Kind) :
    Prod.fst <$> follow declare (.gather gathering) kind children (below declare children) = (do
      count (· + gathering.before)
      if gathering.needsChild && children.isEmpty then malformed (.missingChild kind 0)
      else
        judge gathering (← visitEach gathering.position gathering.admitted []
          (gathering.operands children))) := by
  have operands : Prod.fst <$> (below declare children).operands gathering =
      visitEach gathering.position gathering.admitted [] (gathering.operands children) :=
    map_fst_annotateEach same _ _ _ _
  rw [follow, map_bind, ← operands]
  refine bind_congr fun _ => ?_
  split
  · rfl
  · rw [map_bind, bind_map_left]
    exact bind_congr fun read => by simp

private theorem map_fst_follow_assign {children : List Node}
    (same : ∀ child ∈ children, Prod.fst <$> annotate declare child = visit child) (kind : Kind) :
    Prod.fst <$> follow declare .assign kind children (below declare children) = (do
      let name ← identifierAt .assignStmt children 0
      assignValue children name (← lookup name)) := by
  rw [follow, map_bind]
  refine bind_congr fun name => ?_
  rw [map_bind]
  refine bind_congr fun target => ?_
  rw [below, assignValue]
  cases found : children[1]? with
  | none => rfl
  | some value =>
      simp only [Option.map_some]
      rw [← same value (List.mem_of_getElem? found), map_bind, bind_map_left]
      refine bind_congr fun read => ?_
      split <;> rfl

private theorem map_fst_follow_switch {children : List Node}
    (same : ∀ child ∈ children, Prod.fst <$> annotate declare child = visit child) (kind : Kind) :
    Prod.fst <$> follow declare .switch kind children (below declare children) = (do
      let name ← identifierAt .switchStmt children 0
      switchArms children name (← lookup name)) := by
  rw [follow, map_bind]
  refine bind_congr fun name => ?_
  rw [map_bind]
  refine bind_congr fun found => ?_
  rw [switchArms]
  cases found.filter Ty.isSwitchable with
  | none => rfl
  | some subject =>
      have arms : Prod.fst <$> (below declare children).arms subject =
          visitEach (.arm subject) .any [] children.tail :=
        map_fst_annotateEach (fun child member => same child (List.mem_of_mem_tail member))
          _ _ false _
      dsimp only
      rw [← arms, map_bind, bind_map_left]
      exact bind_congr fun read => by simp

private theorem map_fst_annotate_of_children (label : Label) (children : List Node)
    (same : ∀ child ∈ children, Prod.fst <$> annotate declare child = visit child) :
    Prod.fst <$> annotate declare ⟨label, children⟩ = visit ⟨label, children⟩ := by
  rw [annotate_mk, map_bind]
  simp only [map_fst_note]
  cases planned : label.gathering? children.length with
  | some gathering =>
      rw [visit_of_gathering planned, Label.rule_of_gathering planned]
      exact bind_congr fun _ => map_fst_follow_gather same _
  | none =>
      cases label with
      | assignStmt =>
          rw [visit_assignStmt]
          exact bind_congr fun _ => map_fst_follow_assign same _
      | switchStmt =>
          rw [visit_switchStmt]
          exact bind_congr fun _ => map_fst_follow_switch same _
      | declaration typeName =>
          rw [visit]
          exact bind_congr fun _ => map_fst_follow_declare typeName _ _ _
      | enumStmt =>
          rw [visit]
          exact bind_congr fun _ => map_fst_follow_enumerate _ _ _
      | program | caseStmt | boolValue _ | intValue _ | identifier _ =>
          rw [visit]
          rfl
      | boolExpr tokens | notExpr tokens | unaExpr tokens => cases tokens <;> cases planned
      | _ => cases planned

/-- With declarations, the annotated walk is the walk. -/
theorem map_fst_annotate (node : Node) : Prod.fst <$> annotate declare node = visit node :=
  Node.childrenInduction map_fst_annotate_of_children node

/-! ## The nodes found -/

/-- Whatever the step returns is as stated. -/
def Ensures {α : Type} (step : Check α) (stated : α → Prop) : Prop :=
  ∀ walk value after, step walk = (.ok value, after) → stated value

theorem ensures_pure {α : Type} {value : α} {stated : α → Prop} (holds : stated value) :
    (pure value : Check α).Ensures stated := by
  intro walk result after done
  cases done
  exact holds

theorem ensures_fail {α : Type} (fault : Fault) (stated : α → Prop) :
    (fail fault : Check α).Ensures stated := by
  intro walk value after done
  cases done

theorem Ensures.bind {α β : Type} {step : Check α} {next : α → Check β} {first : α → Prop}
    {second : β → Prop} (ensured : step.Ensures first)
    (continued : ∀ value, first value → (next value).Ensures second) :
    (step >>= next).Ensures second := by
  intro walk value after done
  obtain ⟨result, middle, ran, rest⟩ := bind_eq_ok_iff.mp done
  exact continued result (ensured walk result middle ran) middle value after rest

theorem ensures_bind {α β : Type} {step : Check α} {next : α → Check β} {stated : β → Prop}
    (continued : ∀ value, (next value).Ensures stated) : (step >>= next).Ensures stated := by
  have anything : step.Ensures fun _ => True := fun _ _ _ _ => trivial
  exact anything.bind fun value _ => continued value

section

variable {bind : String → Ty → Check Unit}

/-- The annotated walk finds the types of the nodes walked from this one on. -/
def FindsWalked (bind : String → Ty → Check Unit) (node : Node) : Prop :=
  (annotate bind node).Ensures fun read => read.2.map Prod.fst = node.walk

theorem FindsWalked.annotateRead {child : Node} (finds : FindsWalked bind child)
    (position : Position) :
    (annotateRead bind position child).Ensures fun read =>
      read.2.map Prod.fst = if position.walks child.label then child.walk else [] := by
  revert finds
  refine read_cases position child (fun walks finds => ?_) (fun name below _ => ?_)
    fun subject below _ => ?_
  · rw [annotateRead_of_walks bind walks, if_pos walks]
    exact finds
  · exact ensures_bind fun type => ensures_pure rfl
  · exact ensures_bind fun type => ensures_pure rfl

private theorem findsWalked_each {children : List Node}
    (finds : ∀ child ∈ children, FindsWalked bind child) (position : Position)
    (admitted : Admission) (onlyFirst : Bool) (earlier : List Ty) :
    (annotateEach bind position admitted onlyFirst earlier children).Ensures fun read =>
      read.2.map Prod.fst =
        position.walked (if onlyFirst then children.take 1 else children) := by
  induction children generalizing earlier with
  | nil =>
      rw [annotateEach_nil]
      refine ensures_pure ?_
      cases onlyFirst <;> rfl
  | cons child rest ih =>
      obtain ⟨first, others⟩ := List.forall_mem_cons.mp finds
      rw [annotateEach_cons]
      refine (first.annotateRead position).bind fun read found => ?_
      split
      · cases onlyFirst with
        | true => exact ensures_pure (by simp [found, Position.walked])
        | false =>
            refine (ih others (earlier ++ [read.1])).bind fun more foundMore => ensures_pure ?_
            rw [List.map_append, found, foundMore]
            rfl
      · exact ensures_fail _ _

private theorem findsWalked_of_children (label : Label) (children : List Node)
    (finds : ∀ child ∈ children, FindsWalked bind child) : FindsWalked bind ⟨label, children⟩ := by
  have leaf (leads : ∀ place below, label.leadsTo place below = false) :
      Node.walkBelow label 0 children = [] :=
    Node.walkBelow_eq_nil (fun place _ => leads place) children
  have followed : (follow bind (label.rule children.length) label.kind children
      (below bind children)).Ensures fun read =>
        read.2.map Prod.fst = Node.walkBelow label 0 children := by
    cases planned : label.gathering? children.length with
    | some gathering =>
        rw [Label.rule_of_gathering planned, Node.walkBelow_of_gathering planned]
        refine ensures_bind fun _ => ?_
        split
        · exact ensures_fail _ _
        · refine (findsWalked_each finds _ _ _ _).bind fun read found => ?_
          exact ensures_bind fun type => ensures_pure found
    | none =>
        cases label with
        | assignStmt =>
            refine ensures_bind fun name => ensures_bind fun target => ?_
            rw [Node.walkBelow_assignStmt, below]
            cases value : children[1]? with
            | none => exact ensures_fail _ _
            | some value =>
                refine (finds _ (List.mem_of_getElem? value)).bind fun read found => ?_
                split
                · exact ensures_pure found
                · exact ensures_fail _ _
        | switchStmt =>
            refine ensures_bind fun name => ensures_bind fun found => ?_
            split
            · exact ensures_fail _ _
            · rename_i subject _
              rw [Node.walkBelow_switchStmt_tail subject]
              have arms := fun child member => finds child (List.mem_of_mem_tail member)
              exact (findsWalked_each arms _ _ false _).bind fun read found => ensures_pure found
        | program | caseStmt => exact ensures_fail _ _
        | boolValue _ | intValue _ | identifier _ =>
            exact ensures_pure (leaf fun _ _ => rfl).symm
        | declaration _ | enumStmt =>
            exact ensures_bind fun _ => ensures_pure (leaf fun _ _ => rfl).symm
        | boolExpr tokens | notExpr tokens | unaExpr tokens => cases tokens <;> cases planned
        | _ => cases planned
  rw [FindsWalked, annotate_mk]
  refine ensures_bind fun _ => followed.bind fun read found => ensures_pure ?_
  rw [note, List.map_cons, found, Node.walk]

private theorem findsWalked (bind : String → Ty → Check Unit) (node : Node) :
    FindsWalked bind node :=
  Node.childrenInduction findsWalked_of_children node

end

/-! ## Programs -/

/-- Checks a program and returns its metrics and the types of all nodes walked in it. -/
def annotateProgram (bind : String → Ty → Check Unit) (program : Node) :
    Check (Metrics × Findings) :=
  match program.label with
  | .program => do
    emit (.checking program.size)
    let read ← annotateEach bind .plain .any false [] program.children
    let symbols := (← current).symbols
    count fun metrics => { metrics with vars := symbols.variableCount }
    let metrics := (← current).metrics
    emit (.wellTyped symbols.size metrics.vars metrics.operators)
    return (metrics, read.2)
  | other => malformed (.root other.kind)

theorem map_fst_annotateProgram (program : Node) :
    Prod.fst <$> annotateProgram declare program = Check.program program := by
  rcases program with ⟨label, children⟩
  cases label with
  | program =>
      have items : Prod.fst <$> annotateEach declare .plain .any false [] children =
          visitEach .plain .any [] children :=
        map_fst_annotateEach (fun child _ => map_fst_annotate child) _ _ false _
      simp only [annotateProgram, Check.program, Node.label_mk, Node.children_mk, ← items, map_bind,
        bind_map_left, map_pure]
  | _ => rfl

theorem annotateProgram_ensures (bind : String → Ty → Check Unit) (program : Node) :
    (annotateProgram bind program).Ensures fun read =>
      read.2.map Prod.fst = program.walked := by
  unfold annotateProgram
  split
  · refine ensures_bind fun _ => ?_
    refine (findsWalked_each (fun child _ => findsWalked bind child) .plain .any false []).bind
      fun read found => ?_
    refine ensures_bind fun _ => ensures_bind fun _ => ?_
    exact ensures_bind fun _ => ensures_bind fun _ => ensures_pure found
  · exact ensures_fail _ _

end Check

end TreeCheck
