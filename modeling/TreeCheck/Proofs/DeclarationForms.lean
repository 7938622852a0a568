import TreeCheck.Proofs.Alike
import TreeCheck.Proofs.Retyping
import TreeCheck.Proofs.ScriptProperties
import TreeCheck.Proofs.Sequence
import TreeCheck.Proofs.TypingProperties

/-!
# Two ways to write a declaration

The type of a variable is written on the node of its declaration, or else it is the first of two
children. A program may be restated from either way into the other. What has to be known about a way
of writing is only that each declaration keeps its typing rule; the rules of all other nodes then
carry over, and the counters follow because a declaration counts the same however it is written.
-/

set_option autoImplicit false

namespace TreeCheck

/-- What is written in a declaration: a type on the node, if any, and the children. -/
structure Declaration where
  typeName : Option String
  children : List Node

namespace Declaration

def node (declaration : Declaration) : Node :=
  ⟨.declaration declaration.typeName, declaration.children⟩

private theorem node_injective : Function.Injective node := by
  intro left right same
  cases left
  cases right
  cases same
  rfl

/-- The type goes from the first child onto the node. Whatever was written there is lost, and so is
what follows the name. -/
def short : Declaration → Declaration
  | ⟨_, ⟨.identifier typeName, _⟩ :: name :: _⟩ => ⟨some typeName, [name]⟩
  | declaration => declaration

/-- The type goes from the node to a child of its own. -/
def long : Declaration → Declaration
  | ⟨some typeName, [name]⟩ => ⟨none, [.ident typeName, name]⟩
  | declaration => declaration

end Declaration

namespace Node

mutual

/-- Writes every declaration that is walked from a node on in another form. -/
def restate (form : Declaration → Declaration) : Node → Node
  | ⟨label, children⟩ =>
    match label with
    | .declaration typeName => (form ⟨typeName, children⟩).node
    | _ => ⟨label, restateBelow form label 0 children⟩

/-- The same below a node with this label; the first child given stands at `index`. -/
def restateBelow (form : Declaration → Declaration) (label : Label) (index : Nat) :
    List Node → List Node
  | [] => []
  | child :: rest =>
    (if label.leadsTo index child.label then child.restate form else child) ::
      restateBelow form label (index + 1) rest

end

/-- The program with every walked declaration written in another form. -/
def restated (form : Declaration → Declaration) (program : Node) : Node :=
  ⟨program.label, program.children.map (restate form)⟩

variable (form : Declaration → Declaration)

@[simp] theorem restate_declaration (declaration : Declaration) :
    declaration.node.restate form = (form declaration).node := by
  rw [Declaration.node, restate]

private theorem restate_of_kind_ne {label : Label} (other : label.kind ≠ .declaration)
    (children : List Node) :
    restate form ⟨label, children⟩ = ⟨label, restateBelow form label 0 children⟩ := by
  cases label with
  | declaration => exact absurd rfl other
  | _ =>
      rw [restate]
      nofun

private theorem exists_declaration {label : Label} (declared : label.kind = .declaration)
    (children : List Node) : ∃ declaration : Declaration, declaration.node = ⟨label, children⟩ := by
  cases label with
  | declaration typeName => exact ⟨⟨typeName, children⟩, rfl⟩
  | _ => cases declared

@[simp] theorem restateBelow_nil (label : Label) (index : Nat) :
    restateBelow form label index [] = [] := by
  rw [restateBelow]

private theorem restateBelow_cons (label : Label) (index : Nat) (child : Node) (rest : List Node) :
    restateBelow form label index (child :: rest) =
      (if label.leadsTo index child.label then child.restate form else child) ::
        restateBelow form label (index + 1) rest := by
  rw [restateBelow]

@[simp] theorem length_restateBelow (label : Label) (index : Nat) (children : List Node) :
    (restateBelow form label index children).length = children.length := by
  induction children generalizing index with
  | nil => rw [restateBelow_nil]
  | cons child rest ih => rw [restateBelow_cons, List.length_cons, ih, List.length_cons]

private theorem restateBelow_eq_self {label : Label} {index : Nat}
    (leads : ∀ place below, label.leadsTo place below = false) (children : List Node) :
    restateBelow form label index children = children := by
  induction children generalizing index with
  | nil => exact restateBelow_nil form label index
  | cons child rest ih =>
      rw [restateBelow_cons, leads, ih]
      rfl

private theorem restateBelow_eq_map {label : Label} {index : Nat}
    (leads : ∀ place below, label.leadsTo place below = true) (children : List Node) :
    restateBelow form label index children = children.map (restate form) := by
  induction children generalizing index with
  | nil => exact restateBelow_nil form label index
  | cons child rest ih =>
      rw [restateBelow_cons, leads, ih]
      rfl

/-! ## Walked nodes and counters -/

@[simp] theorem kind_restate (node : Node) : (node.restate form).kind = node.kind := by
  rcases node with ⟨label, children⟩
  by_cases declared : label.kind = .declaration
  · obtain ⟨declaration, same⟩ := exists_declaration declared children
    rw [← same, restate_declaration]
    rfl
  · rw [restate_of_kind_ne form declared]
    rfl

end Node

theorem Label.leadsTo_congr {below other : Label} (same : below.kind = other.kind) (label : Label)
    (index : Nat) : label.leadsTo index below = label.leadsTo index other := by
  cases label <;> simp [leadsTo, same]

namespace Node

variable (form : Declaration → Declaration)

private theorem walk_declaration (declaration : Declaration) :
    declaration.node.walk = [declaration.node] := by
  rw [Declaration.node, walk, walkBelow_eq_nil fun _ _ _ => rfl]

private theorem walkBelow_restateBelow {children : List Node}
    (mapped : ∀ child ∈ children, (child.restate form).walk = child.walk.map (restate form))
    (label : Label) (index : Nat) :
    walkBelow label index (restateBelow form label index children) =
      (walkBelow label index children).map (restate form) := by
  induction children generalizing index with
  | nil => simp
  | cons child rest ih =>
      obtain ⟨first, others⟩ := List.forall_mem_cons.mp mapped
      rw [restateBelow_cons, walkBelow_cons, walkBelow_cons, ih others, List.map_append]
      have same : label.leadsTo index (child.restate form).label =
          label.leadsTo index child.label := Label.leadsTo_congr (kind_restate form child) _ _
      by_cases leads : label.leadsTo index child.label = true
      · rw [if_pos leads, same, if_pos leads, if_pos leads, first]
      · rw [if_neg leads, if_neg leads, List.map_nil]

/-- The walked nodes are those that were walked before, each restated. -/
theorem walk_restate (node : Node) : (node.restate form).walk = node.walk.map (restate form) := by
  induction node using childrenInduction with
  | step label children ih =>
      by_cases declared : label.kind = .declaration
      · obtain ⟨declaration, same⟩ := exists_declaration declared children
        rw [← same, restate_declaration, walk_declaration, walk_declaration, List.map_singleton,
          restate_declaration]
      · have restated := restate_of_kind_ne form declared children
        rw [restated, walk, walk, walkBelow_restateBelow form ih, List.map_cons, restated]

private theorem walked_restated (program : Node) :
    (program.restated form).walked = program.walked.map (restate form) := by
  have items : (program.restated form).children = program.children.map (restate form) := rfl
  rw [walked, walked, items, List.flatMap_map, List.map_flatMap]
  exact List.flatMap_congr fun item _ => walk_restate form item

private theorem tally_congr (label : Label) {children others : List Node}
    (same : children.length = others.length) :
    (Node.mk label children).tally = (Node.mk label others).tally := by
  have values : (Node.mk label children).valueCount = (Node.mk label others).valueCount := by
    cases label <;> simp [valueCount, same]
  have operators :
      (Node.mk label children).operatorCount = (Node.mk label others).operatorCount := by
    cases label <;> simp [operatorCount, same]
  rw [tally, tally, values, operators]
  rfl

private theorem tally_restate (node : Node) : (node.restate form).tally = node.tally := by
  rcases node with ⟨label, children⟩
  by_cases declared : label.kind = .declaration
  · obtain ⟨declaration, same⟩ := exists_declaration declared children
    rw [← same, restate_declaration]
    rfl
  · rw [restate_of_kind_ne form declared]
    exact tally_congr label (length_restateBelow form label 0 children)

private theorem tallies_restated (program : Node) :
    (program.restated form).walked.map tally = program.walked.map tally := by
  rw [walked_restated, List.map_map]
  exact List.map_congr_left fun node _ => tally_restate form node

end Node

/-! ## Typing -/

theorem HasType.unknown_of_declaration {table after : SymbolTable} {declaration : Declaration}
    {type : Ty}
    (typed : HasType table declaration.node type after) : type = .unknown := by
  rcases declaration with ⟨typeName, children⟩
  cases typed with
  | declaration | typedDeclaration => rfl

theorem HasType.isPartOf {table after : SymbolTable} {node : Node} {type : Ty}
    (typed : HasType table node type after) : table.IsPartOf after := by
  obtain ⟨reached, visited, rfl⟩ :=
    (Check.realizes_visit node ⟨⟨table, {}⟩, []⟩ type after).mpr typed
  obtain ⟨growth, -, grows, -⟩ := Check.follows_visit node ⟨⟨table, {}⟩, []⟩
  rw [visited] at grows
  exact ⟨growth.bindings, grows.symbols⟩

theorem HasTypes.isPartOf {position : Position} {table after : SymbolTable}
    {children : List Node} {types : List Ty}
    (typed : HasTypes position table children types after) : table.IsPartOf after := by
  induction children generalizing table types with
  | nil =>
      cases typed
      exact .refl _
  | cons child rest ih =>
      cases typed with
      | walked _ typed others => exact typed.isPartOf.trans (ih others)
      | value _ others => exact ih others
      | arm _ others => exact ih others

/-- The form declares the same, as long as the table afterwards is as asked. What is asked of a
table is asked of every part of it. -/
structure Declaration.Keeps (form : Declaration → Declaration) (asked : SymbolTable → Prop) :
    Prop where
  typed : ∀ {table after : SymbolTable} {declaration : Declaration}, asked after →
    HasType table declaration.node .unknown after →
    HasType table (form declaration).node .unknown after
  part : ∀ {table after : SymbolTable}, table.IsPartOf after → asked after → asked table

/-- A well-typed node stays well typed when it is restated. -/
def Node.Stays (form : Declaration → Declaration) (asked : SymbolTable → Prop) (node : Node) :
    Prop :=
  ∀ ⦃table after : SymbolTable⦄ ⦃type : Ty⦄, asked after → HasType table node type after →
    HasType table (node.restate form) type after

section

variable {form : Declaration → Declaration} {asked : SymbolTable → Prop}

/-- From `index` on, the node with this label has its children read in this position. -/
theorem HasTypes.restateBelow (keeps : Declaration.Keeps form asked) {label : Label}
    {position : Position} {index : Nat} {table after : SymbolTable} {children : List Node}
    {types : List Ty}
    (leads : ∀ place, index ≤ place → ∀ below, label.leadsTo place below = position.walks below)
    (stay : ∀ child ∈ children, child.Stays form asked) (wanted : asked after)
    (typed : HasTypes position table children types after) :
    HasTypes position table (Node.restateBelow form label index children) types after := by
  induction children generalizing index table types with
  | nil =>
      cases typed
      rw [Node.restateBelow_nil]
      exact .nil
  | cons child rest ih =>
      obtain ⟨first, others⟩ := List.forall_mem_cons.mp stay
      have later := fun place above => leads place (Nat.le_of_succ_le above)
      rw [Node.restateBelow_cons, leads index (Nat.le_refl index)]
      cases typed with
      | walked walks typed typedRest =>
          have walksRestated : position.walks (child.restate form).label = true := by
            rw [← leads index (Nat.le_refl index), ← walks, ← leads index (Nat.le_refl index)]
            exact Label.leadsTo_congr (Node.kind_restate form child) label index
          rw [if_pos walks]
          exact .walked walksRestated (first (keeps.part typedRest.isPartOf wanted) typed)
            (ih later others typedRest)
      | value bound typedRest => exact .value bound (ih later others typedRest)
      | arm fits typedRest => exact .arm fits (ih later others typedRest)

/-- The rule of every node but a declaration asks the same of the restated children. -/
theorem Node.stays_of_children (keeps : Declaration.Keeps form asked) (label : Label)
    (children : List Node) (stay : ∀ child ∈ children, child.Stays form asked) :
    (Node.mk label children).Stays form asked := by
  intro table after type wanted typed
  by_cases declared : label.kind = .declaration
  · obtain ⟨declaration, same⟩ := Node.exists_declaration declared children
    rw [← same] at typed ⊢
    obtain rfl := typed.unknown_of_declaration
    rw [Node.restate_declaration]
    exact keeps.typed wanted typed
  rw [Node.restate_of_kind_ne form declared]
  cases typed with
  | declaration | typedDeclaration => exact absurd rfl declared
  | enumStmt named extended =>
      rw [Node.restateBelow_eq_self form fun _ _ => rfl]
      exact .enumStmt named extended
  | block typed last => exact .block (typed.restateBelow keeps (fun _ _ _ => rfl) stay wanted) last
  | stmt typed last => exact .stmt (typed.restateBelow keeps (fun _ _ _ => rfl) stay wanted) last
  | expr typed last => exact .expr (typed.restateBelow keeps (fun _ _ _ => rfl) stay wanted) last
  | genValue typed last =>
      exact .genValue (typed.restateBelow keeps
        (fun place _ below => Label.leadsTo_genValue place below) stay wanted) last
  | ifStmt condition bodies =>
      obtain ⟨first, others⟩ := List.forall_mem_cons.mp stay
      rw [Node.restateBelow_cons]
      exact .ifStmt (first (keeps.part bodies.isPartOf wanted) condition)
        (bodies.restateBelow keeps (fun _ _ _ => rfl) others wanted)
  | whileStmt condition bodies =>
      obtain ⟨first, others⟩ := List.forall_mem_cons.mp stay
      rw [Node.restateBelow_cons]
      exact .whileStmt (first (keeps.part bodies.isPartOf wanted) condition)
        (bodies.restateBelow keeps (fun _ _ _ => rfl) others wanted)
  | assignStmt bound value accepted =>
      rw [Node.restateBelow_cons, Node.restateBelow_cons]
      exact .assignStmt bound (stay _ (by simp) wanted value) accepted
  | switchStmt bound switchable arms =>
      obtain ⟨-, others⟩ := List.forall_mem_cons.mp stay
      rw [Node.restateBelow_cons]
      exact .switchStmt bound switchable (arms.restateBelow keeps
        (fun _ later below => Label.leadsTo_switchStmt _ later below) others wanted)
  | compExpr typed joined =>
      exact .compExpr (typed.restateBelow keeps (fun _ _ _ => rfl) stay wanted) joined
  | addExpr typed arithmetic =>
      exact .addExpr (typed.restateBelow keeps (fun _ _ _ => rfl) stay wanted) arithmetic
  | mulExpr typed arithmetic =>
      exact .mulExpr (typed.restateBelow keeps (fun _ _ _ => rfl) stay wanted) arithmetic
  | boolExpr typed shared =>
      exact .boolExpr (typed.restateBelow keeps (fun _ _ _ => rfl) stay wanted) shared
  | notExpr typed last =>
      exact .notExpr (typed.restateBelow keeps (fun _ _ _ => rfl) stay wanted) last
  | @negation _ _ tokens operand rest operator typed =>
      have leads : (Label.notExpr tokens).leadsTo 0 operand.label = true := Bool.or_true _
      rw [Node.restateBelow_cons, if_pos leads]
      exact .negation operator (stay _ (by simp) wanted typed)
  | unaExpr typed last =>
      exact .unaExpr (typed.restateBelow keeps (fun _ _ _ => rfl) stay wanted) last
  | boolValue => exact .boolValue
  | intValue => exact .intValue
  | identifier => exact .identifier

theorem WellTyped.restated (keeps : Declaration.Keeps form asked) {table after : SymbolTable}
    {program : Node} (wanted : asked after) (typed : WellTyped table program after) :
    WellTyped table (program.restated form) after := by
  rcases program with ⟨label, items⟩
  cases typed with
  | program typed =>
      have stay : ∀ item ∈ items, item.Stays form asked := fun item _ =>
        Node.childrenInduction (Node.stays_of_children keeps) item
      have below : Node.restateBelow form .block 0 items = items.map (Node.restate form) :=
        Node.restateBelow_eq_map form (fun _ _ => rfl) items
      have restated : HasTypes .plain table (Node.restateBelow form .block 0 items) _ after :=
        typed.restateBelow keeps (fun _ _ _ => rfl) stay wanted
      rw [below] at restated
      exact .program restated

end

/-! ## The two forms -/

namespace Declaration

private theorem keeps_short : Keeps short fun _ => True where
  typed := by
    intro table after declaration _ typed
    rcases declaration with ⟨typeName, children⟩
    cases typed with
    | declaration given extended => exact .declaration given extended
    | typedDeclaration denoted extended => exact .declaration (.named denoted) extended
  part _ _ := trivial

/-- A type that does not exist is tolerated on the node of a declaration, but not among its
children. It leaves the variable without a definite type. -/
theorem keeps_long : Keeps long fun table => ∀ name, table.lookup name ≠ some .unknown where
  typed := by
    intro table after declaration definite typed
    rcases declaration with ⟨typeName, children⟩
    cases typed with
    | declaration given extended =>
        cases given with
        | missing => exact .declaration .missing extended
        | named denoted => exact .typedDeclaration denoted extended
        | stray => exact absurd (extended.lookup_of_mem List.mem_cons_self) (definite _)
    | typedDeclaration denoted extended =>
        cases typeName <;> exact .typedDeclaration denoted extended
  part := by
    intro table after part definite name indefinite
    obtain ⟨bindings, extended⟩ := part
    exact definite name (extended.lookup_of_lookup indefinite)

end Declaration

/-! ## Programs -/

namespace Session

variable {session : Session} {program other : Node} {metrics : Metrics}

private theorem increase_of_accepted (accepted : (session.check program).outcome = .ok metrics) :
    session.metrics.Increase (program.walked.map Node.tally).sum
      (session.check program).session.metrics := by
  obtain ⟨growth, rest, -, increase, -, parts, left⟩ := session.check_follows program
  rw [accepted] at left
  cases left
  rw [add_zero] at parts
  rw [← Script.ofNodes_counts, ← parts]
  exact ⟨increase.whiles, increase.ifs, increase.enumValues, increase.operators⟩

/-- Accepted programs that leave the same table end alike if their walked nodes count the same. -/
theorem endsLike_of_accepted {found : Metrics}
    (accepted : (session.check program).outcome = .ok metrics)
    (otherAccepted : (session.check other).outcome = .ok found)
    (symbols : (session.check other).session.symbols = (session.check program).session.symbols)
    (tallies : other.walked.map Node.tally = program.walked.map Node.tally) :
    (session.check other).EndsLike (session.check program) := by
  obtain ⟨counters, vars⟩ := metrics_of_accepted accepted
  obtain ⟨otherCounters, otherVars⟩ := metrics_of_accepted otherAccepted
  have increase := increase_of_accepted accepted
  have otherIncrease := increase_of_accepted otherAccepted
  rw [tallies] at otherIncrease
  have matched : (session.check other).session.Matches (session.check program).session :=
    { symbols
      whiles := otherIncrease.whiles.trans increase.whiles.symm
      ifs := otherIncrease.ifs.trans increase.ifs.symm
      enumValues := otherIncrease.enumValues.trans increase.enumValues.symm
      operators := otherIncrease.operators.trans increase.operators.symm }
  have same : (session.check other).session = (session.check program).session :=
    matched.eq_of_vars_eq (by rw [otherCounters, counters, otherVars, vars, symbols])
  refine ⟨?_, same⟩
  rw [accepted, otherAccepted, ← counters, ← otherCounters, same]

private theorem check_restated {form : Declaration → Declaration} {asked : SymbolTable → Prop}
    (keeps : Declaration.Keeps form asked)
    (accepted : (session.check program).outcome = .ok metrics)
    (wanted : asked (session.check program).session.symbols) :
    (session.check (program.restated form)).EndsLike (session.check program) := by
  have typed : WellTyped session.symbols program (session.check program).session.symbols :=
    (session.check_ok_iff_wellTyped program _).mp ⟨metrics, accepted, rfl⟩
  obtain ⟨found, restatedAccepted, symbols⟩ :=
    (session.check_ok_iff_wellTyped _ _).mpr (typed.restated keeps wanted)
  exact endsLike_of_accepted accepted restatedAccepted symbols (program.tallies_restated form)

end Session

/-- The declarations that are walked in the program are all written like this. -/
def Node.EveryDeclaration (program : Node) (written : Declaration → Prop) : Prop :=
  ∀ declaration : Declaration, declaration.node ∈ program.walked → written declaration

theorem Node.everyDeclaration_restated {form : Declaration → Declaration} {program : Node}
    {written : Declaration → Prop}
    (every : program.EveryDeclaration fun declaration => written (form declaration)) :
    (program.restated form).EveryDeclaration written := by
  intro declaration member
  rw [walked_restated, List.mem_map] at member
  obtain ⟨⟨label, children⟩, walked, same⟩ := member
  have declared : label.kind = .declaration :=
    (kind_restate form ⟨label, children⟩).symm.trans (congrArg kind same)
  obtain ⟨earlier, shown⟩ := exists_declaration declared children
  rw [← shown] at walked same
  rw [restate_declaration] at same
  rw [← Declaration.node_injective same]
  exact every earlier walked

/-- In an accepted program the first child of a walked declaration is an identifier. -/
theorem Session.everyDeclaration_short {session : Session} {program : Node} {metrics : Metrics}
    (accepted : (session.check program).outcome = .ok metrics) :
    program.EveryDeclaration fun declaration => declaration.short.children.length = 1 := by
  intro declaration walked
  have shaped := session.check_reveals program
  rw [accepted] at shaped
  obtain ⟨named, -⟩ : declaration.node.Legible := shaped.legible _ walked
  rcases declaration with ⟨typeName, _ | ⟨⟨label, below⟩, rest⟩⟩
  · cases named
  · cases label with
    | identifier name => cases rest <;> rfl
    | _ => cases named

/-- Accepted programs may be written in either form. With the type of every walked declaration moved
from its first child onto its node, an accepted program is checked as before, with the same outcome,
the same names and the same counters, and all its walked declarations have a single child. With the
types moved the other way it is checked as before too, provided no name is left without a definite
type, and declarations that had a type and one child then have two. -/
theorem declaration_forms_agree {session : Session} {program : Node} {metrics : Metrics}
    (accepted : (session.check program).outcome = .ok metrics) :
    ((session.check (program.restated .short)).EndsLike (session.check program) ∧
      (program.restated .short).EveryDeclaration fun declaration =>
        declaration.children.length = 1) ∧
    ((∀ name, (session.check program).session.symbols.lookup name ≠ some .unknown) →
      (session.check (program.restated .long)).EndsLike (session.check program)) ∧
    ((program.EveryDeclaration fun declaration =>
        declaration.typeName.isSome ∧ declaration.children.length = 1) →
      (program.restated .long).EveryDeclaration fun declaration =>
        declaration.children.length = 2) := by
  refine ⟨⟨?_, ?_⟩, ?_, ?_⟩
  · exact Session.check_restated Declaration.keeps_short accepted trivial
  · exact Node.everyDeclaration_restated (Session.everyDeclaration_short accepted)
  · exact Session.check_restated Declaration.keeps_long accepted
  · intro every
    refine Node.everyDeclaration_restated fun declaration walked => ?_
    obtain ⟨typed, single⟩ := every declaration walked
    rcases declaration with ⟨_ | typeName, children⟩
    · cases typed
    · obtain ⟨name, rfl⟩ := List.length_eq_one_iff.mp single
      rfl

-- Both ways of writing a type that does not exist: the first leaves a variable of no definite type.
example :
    (Session.check {} (.program [.declaration "light" "lamp"])).outcome = .ok { vars := 1 } ∧
    (Session.check {} (.program [.enumDeclaration "light" "lamp"])).outcome =
      .error (.violation (.unknownDeclaredType "lamp" "light")) := by
  decide +kernel

/-- An enumeration, and a loop in which a variable of it is declared. -/
def Node.signal (lamp : Node) : Node :=
  .program [.enumStmt "light" ["red", "green"],
    .stmt (.whileStmt (.expr (.boolean true))
      [.block [lamp, .stmt (.assign "lamp" (.expr (.var "red")))]])]

theorem signal_forms_agree :
    (Session.check {} (.signal (.enumDeclaration "light" "lamp"))).outcome =
      .ok { vars := 1, whiles := 1, enumValues := 2 } ∧
    (Session.check {} (.signal (.declaration "light" "lamp"))).EndsLike
      (Session.check {} (.signal (.enumDeclaration "light" "lamp"))) ∧
    (Session.check {} (.signal (.enumDeclaration "light" "lamp"))).EndsLike
      (Session.check {} (.signal (.declaration "light" "lamp"))) := by
  have long : (Session.check {} (.signal (.enumDeclaration "light" "lamp"))).outcome =
      .ok { vars := 1, whiles := 1, enumValues := 2 } := by decide +kernel
  have short : (Session.check {} (.signal (.declaration "light" "lamp"))).outcome =
      .ok { vars := 1, whiles := 1, enumValues := 2 } := by decide +kernel
  have entries : (Session.check {} (.signal (.declaration "light" "lamp"))).session.symbols.entries =
      [("light", .enumType), ("red", .enumValue), ("green", .enumValue), ("lamp", .enumVar)] := by
    decide +kernel
  refine ⟨long, (declaration_forms_agree long).1.1, (declaration_forms_agree short).2.1 ?_⟩
  intro name indefinite
  rw [SymbolTable.lookup_eq_some_iff, entries] at indefinite
  simp at indefinite

end TreeCheck
