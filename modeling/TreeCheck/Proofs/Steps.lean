import TreeCheck.Check.Program
import TreeCheck.Proofs.Extension

/-!
# Reading the walk

Laws that open the two functions of the walk. A property of trees is proved by passing from all the
children of a node to the node; a list of children is read one child at a time by `Check.read`,
which walks a child unless the position of the list lets the parent read it on its own.
-/

set_option autoImplicit false

namespace TreeCheck

/-- Induction over trees. Every child is at hand, also those that no rule walks. -/
@[elab_as_elim] theorem Node.childrenInduction {motive : Node → Prop}
    (step : ∀ (label : Label) (children : List Node),
      (∀ child ∈ children, motive child) → motive ⟨label, children⟩) :
    ∀ node, motive node
  | ⟨label, children⟩ => step label children fun child _ => Node.childrenInduction step child

theorem Node.identifier?_eq_some_iff {node : Node} {name : String} :
    node.identifier? = some name ↔ ∃ below, node = ⟨.identifier name, below⟩ := by
  rcases node with ⟨label, below⟩
  cases label <;> simp [identifier?]

/-- Whether a child with this label is walked in this position, rather than read by its parent. -/
def Position.walks : Position → Label → Bool
  | .value, .identifier _ => false
  | .arm _, .caseStmt => false
  | _, _ => true

theorem Position.walks_eq_false_iff {position : Position} {label : Label} :
    position.walks label = false ↔
      (position = .value ∧ ∃ name, label = .identifier name) ∨
      ∃ subject, position = .arm subject ∧ label = .caseStmt := by
  fun_cases Position.walks position label <;> simp_all

namespace Check

theorem bind_eq_ok_iff {α β : Type} {step : Check α} {next : α → Check β} {walk after : Walk}
    {value : β} :
    (step >>= next) walk = (.ok value, after) ↔
      ∃ result middle, step walk = (.ok result, middle) ∧
        next result middle = (.ok value, after) := by
  constructor
  · intro done
    rcases run : step walk with ⟨fault | result, middle⟩
    · rw [bind_of_error next run] at done
      cases done
    · rw [bind_of_ok next run] at done
      exact ⟨result, middle, rfl, done⟩
  · rintro ⟨result, middle, run, done⟩
    rw [bind_of_ok next run, done]

theorem map_eq_ok_iff {α β : Type} {step : Check α} {result : α → β} {walk after : Walk}
    {value : β} :
    (result <$> step) walk = (.ok value, after) ↔
      ∃ found, step walk = (.ok found, after) ∧ result found = value := by
  rw [map_eq_pure_bind, bind_eq_ok_iff]
  constructor
  · rintro ⟨found, middle, run, done⟩
    cases done
    exact ⟨found, run, rfl⟩
  · rintro ⟨found, run, rfl⟩
    exact ⟨found, after, run, rfl⟩

section

variable {α : Type} (walk : Walk)

theorem emit_bind_apply (event : Event) (next : Unit → Check α) :
    (emit event >>= next) walk = next () (emit event walk).2 := rfl

theorem lookup_bind_apply (name : String) (next : Option Ty → Check α) :
    (lookup name >>= next) walk = next (walk.session.symbols.lookup name) walk := rfl

theorem current_bind_apply (next : Session → Check α) :
    (current >>= next) walk = next walk.session walk := rfl

end

/-- A declaration either finds its name bound and changes nothing, or adds one binding. -/
theorem declare_cases (name : String) (type : Ty) (walk : Walk) :
    (name ∈ walk.session.symbols.names ∧
      declare name type walk = (.error (.violation (.multipleDeclaration name)), walk)) ∨
    ∃ symbols, walk.session.symbols.Extends [(name, type)] symbols ∧
      declare name type walk =
        (.ok (), { walk with session := { walk.session with symbols } }) := by
  cases declared : walk.session.symbols.declare name type with
  | error broken =>
      obtain ⟨bound, rfl⟩ := SymbolTable.declare_eq_error_iff.mp declared
      exact .inl ⟨bound, by rw [declare, declared]⟩
  | ok symbols =>
      exact .inr ⟨symbols, SymbolTable.declare_eq_ok_iff.mp declared, by rw [declare, declared]⟩

/-- Reads one child in a position. -/
def read (position : Position) (child : Node) : Check Ty :=
  match position, child.label with
  | .value, .identifier name => resolve name
  | .arm subject, .caseStmt => caseLabel subject child.children
  | _, _ => visit child

theorem read_of_walks {position : Position} {child : Node}
    (walked : position.walks child.label = true) : read position child = visit child := by
  unfold read
  split
  · rename_i named
    rw [named] at walked
    cases walked
  · rename_i found
    rw [found] at walked
    cases walked
  · rfl

/-- The three ways in which a child is read. -/
@[elab_as_elim] theorem read_cases {motive : Position → Node → Prop} (position : Position)
    (child : Node)
    (walked : position.walks child.label = true → motive position child)
    (value : ∀ name below, motive .value ⟨.identifier name, below⟩)
    (arm : ∀ subject below, motive (.arm subject) ⟨.caseStmt, below⟩) :
    motive position child := by
  cases known : position.walks child.label with
  | true => exact walked known
  | false =>
      rcases child with ⟨label, below⟩
      rcases Position.walks_eq_false_iff.mp known with ⟨rfl, name, rfl⟩ | ⟨subject, rfl, rfl⟩
      · exact value name below
      · exact arm subject below

theorem visitEach_nil (position : Position) (admitted : Admission) (earlier : List Ty) :
    visitEach position admitted earlier [] = pure earlier := by
  rw [visitEach]

theorem visitEach_cons (position : Position) (admitted : Admission) (earlier : List Ty)
    (child : Node) (rest : List Node) :
    visitEach position admitted earlier (child :: rest) =
      (read position child >>= fun type =>
        if admitted earlier type then visitEach position admitted (earlier ++ [type]) rest
        else reject .invalidExpressionType) := by
  rcases child with ⟨label, below⟩
  cases position with
  | plain => rfl
  | value => cases label <;> rfl
  | arm subject => cases label <;> rfl

theorem length_of_visitEach {position : Position} {admitted : Admission} {children : List Node}
    {earlier types : List Ty} {walk after : Walk}
    (done : visitEach position admitted earlier children walk = (.ok types, after)) :
    types.length = earlier.length + children.length := by
  induction children generalizing earlier walk with
  | nil =>
      rw [visitEach_nil] at done
      cases done
      rfl
  | cons child rest ih =>
      rw [visitEach_cons, bind_apply] at done
      rcases run : read position child walk with ⟨_ | type, reached⟩
      · rw [run] at done
        cases done
      · rw [run] at done
        dsimp only at done
        split at done
        · rw [ih done, List.length_append, List.length_singleton, List.length_cons]
          omega
        · cases done

end Check

/-! ## Programs -/

/-- The items of a program are read like the children of any other node. -/
def Session.readItems (session : Session) (items : List Node) : Except Fault (List Ty) × Walk :=
  Check.visitEach .plain .any [] items ⟨session, [.checking (Node.mk .program items).size]⟩

/-- The run of a program in which a walk has been stopped. -/
def Walk.refuse (walk : Walk) (fault : Fault) : Run :=
  ⟨.error fault, walk.session, walk.log⟩

/-- The session with its variables counted. -/
def Session.counted (session : Session) : Session :=
  { session with metrics := { session.metrics with vars := session.symbols.variableCount } }

/-- The run of a program after a walk of all its items. -/
def Walk.accept (walk : Walk) : Run :=
  ⟨.ok walk.session.counted.metrics, walk.session.counted,
    walk.log ++ [.wellTyped walk.session.symbols.size walk.session.counted.metrics.vars
      walk.session.counted.metrics.operators]⟩

namespace Session

theorem check_of_label_ne {session : Session} {program : Node}
    (other : program.label ≠ .program) :
    session.check program = Walk.refuse ⟨session, []⟩ (.malformed (.root program.kind)) := by
  have stopped : Check.program program = Check.malformed (.root program.kind) := by
    rw [Check.program]
    split
    · rename_i root
      exact absurd root other
    · rfl
  rw [check, stopped]
  rfl

theorem check_of_error {session : Session} {items : List Node} {fault : Fault} {reached : Walk}
    (stopped : session.readItems items = (.error fault, reached)) :
    session.check ⟨.program, items⟩ = reached.refuse fault := by
  have run : Check.program ⟨.program, items⟩ ⟨session, []⟩ = (.error fault, reached) :=
    (Check.bind_of_ok _ rfl).trans (Check.bind_of_error _ stopped)
  rw [check, run]
  rfl

theorem check_of_ok {session : Session} {items : List Node} {types : List Ty} {reached : Walk}
    (done : session.readItems items = (.ok types, reached)) :
    session.check ⟨.program, items⟩ = reached.accept := by
  have run : Check.program ⟨.program, items⟩ ⟨session, []⟩ =
      (.ok reached.session.counted.metrics, ⟨reached.session.counted, reached.accept.events⟩) :=
    (Check.bind_of_ok _ rfl).trans (Check.bind_of_ok _ done)
  rw [check, run]
  rfl

/-- How the check of a program ends: before it starts, inside an item, or with success. -/
@[elab_as_elim] theorem check_cases {motive : Node → Run → Prop} (session : Session)
    (program : Node)
    (other : ∀ node : Node, node.label ≠ .program →
      motive node (Walk.refuse ⟨session, []⟩ (.malformed (.root node.kind))))
    (stopped : ∀ items fault reached, session.readItems items = (.error fault, reached) →
      motive ⟨.program, items⟩ (reached.refuse fault))
    (done : ∀ items types reached, session.readItems items = (.ok types, reached) →
      motive ⟨.program, items⟩ reached.accept) :
    motive program (session.check program) := by
  by_cases root : program.label = .program
  · rcases program with ⟨label, items⟩
    cases root
    cases run : session.readItems items with
    | mk outcome reached =>
        cases outcome with
        | error fault =>
            rw [check_of_error run]
            exact stopped items fault reached run
        | ok types =>
            rw [check_of_ok run]
            exact done items types reached run
  · rw [check_of_label_ne root]
    exact other program root

end Session

end TreeCheck
