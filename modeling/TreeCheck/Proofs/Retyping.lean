import TreeCheck.Node.Build
import TreeCheck.Proofs.Along
import TreeCheck.Proofs.Annotation

/-!
# Types that stay

While a program is walked, each node is typed by a table that is still growing. In an accepted
program these types are those of the final table: no rule that was passed has used the absence of a
name, and a name that is found keeps its type. So a second check of the program against the final
table, with declarations that bind nothing, finds the same types everywhere.
-/

set_option autoImplicit false

namespace TreeCheck

namespace SymbolTable

/-- The bindings of the table are the oldest bindings of the other. -/
def IsPartOf (table final : SymbolTable) : Prop :=
  ∃ bindings, table.Extends bindings final

variable {table middle final : SymbolTable}

theorem IsPartOf.refl (table : SymbolTable) : table.IsPartOf table :=
  ⟨[], .refl table⟩

theorem IsPartOf.trans (first : table.IsPartOf middle) (second : middle.IsPartOf final) :
    table.IsPartOf final := by
  obtain ⟨earlier, extended⟩ := first
  obtain ⟨later, more⟩ := second
  exact ⟨earlier ++ later, extended.trans more⟩

theorem IsPartOf.lookup (part : table.IsPartOf final) {name : String} {type : Ty}
    (bound : table.lookup name = some type) : final.lookup name = some type := by
  obtain ⟨bindings, extended⟩ := part
  exact extended.lookup_of_lookup bound

theorem IsPartOf.isTypeName (part : table.IsPartOf final) {name : String}
    (known : table.isTypeName name = true) : final.isTypeName name = true := by
  simp only [SymbolTable.isTypeName, Bool.or_eq_true, beq_iff_eq] at known ⊢
  cases known with
  | inl keyword => exact .inl keyword
  | inr bound => exact .inr (part.lookup bound)

end SymbolTable

namespace Check

/-- Whenever the step succeeds, the other step gives the same result from every table that holds at
least what the step has left, and leaves that table as it is. -/
def Stands {α : Type} (step other : Check α) : Prop :=
  ∀ walk value after, step walk = (.ok value, after) →
    walk.session.symbols.IsPartOf after.session.symbols ∧
    ∀ later : Walk, after.session.symbols.IsPartOf later.session.symbols →
      ∃ reached, other later = (.ok value, reached) ∧
        reached.session.symbols = later.session.symbols

theorem stands_pure {α : Type} (value : α) : (pure value : Check α).Stands (pure value) := by
  intro walk result after done
  cases done
  exact ⟨.refl _, fun later _ => ⟨later, rfl, rfl⟩⟩

theorem stands_fail {α : Type} (fault : Fault) (other : Check α) :
    (fail fault : Check α).Stands other := by
  intro walk value after done
  cases done

theorem stands_emit (event other : Event) : (emit event).Stands (emit other) := by
  intro walk value after done
  cases done
  exact ⟨.refl _, fun later _ => ⟨_, rfl, rfl⟩⟩

theorem stands_count (update other : Metrics → Metrics) : (count update).Stands (count other) := by
  intro walk value after done
  cases done
  exact ⟨.refl _, fun later _ => ⟨_, rfl, rfl⟩⟩

theorem Stands.bind {α β : Type} {step other : Check α} {next nextOther : α → Check β}
    (stands : step.Stands other) (continued : ∀ value, (next value).Stands (nextOther value)) :
    (step >>= next).Stands (other >>= nextOther) := by
  intro walk value after done
  obtain ⟨result, middle, ran, rest⟩ := bind_eq_ok_iff.mp done
  obtain ⟨grown, first⟩ := stands walk result middle ran
  obtain ⟨grownOn, second⟩ := continued result middle value after rest
  refine ⟨grown.trans grownOn, fun later part => ?_⟩
  obtain ⟨reached, rerun, kept⟩ := first later (grownOn.trans part)
  obtain ⟨final, rerest, keptOn⟩ := second reached (by rw [kept]; exact part)
  exact ⟨final, bind_eq_ok_iff.mpr ⟨result, reached, rerun, rerest⟩, keptOn.trans kept⟩

theorem Stands.map {α β : Type} {step other : Check α} (stands : step.Stands other)
    (result : α → β) : (result <$> step).Stands (result <$> other) := by
  rw [map_eq_pure_bind, map_eq_pure_bind]
  exact stands.bind fun value => stands_pure (result value)

/-- A name that is not found may be found later, so nothing must succeed without it. -/
theorem stands_lookup_bind {α : Type} {name : String} {next nextOther : Option Ty → Check α}
    (absent : (next none).Ensures fun _ => False)
    (present : ∀ type, (next (some type)).Stands (nextOther (some type))) :
    (lookup name >>= next).Stands (lookup name >>= nextOther) := by
  intro walk value after done
  change next (walk.session.symbols.lookup name) walk = (.ok value, after) at done
  cases found : walk.session.symbols.lookup name with
  | none =>
      rw [found] at done
      exact (absent walk value after done).elim
  | some type =>
      rw [found] at done
      obtain ⟨grown, rerun⟩ := present type walk value after done
      refine ⟨grown, fun later part => ?_⟩
      have bound : later.session.symbols.lookup name = some type :=
        (grown.trans part).lookup found
      change ∃ reached, nextOther (later.session.symbols.lookup name) later = _ ∧ _
      rw [bound]
      exact rerun later part

private theorem stands_current_bind {α : Type} {next nextOther : Session → Check α}
    (continued : ∀ left right : Session, left.symbols.IsPartOf right.symbols →
      (next left).Stands (nextOther right)) :
    (current >>= next).Stands (current >>= nextOther) := by
  intro walk value after done
  change next walk.session walk = (.ok value, after) at done
  have grown := (continued walk.session walk.session (.refl _) walk value after done).1
  refine ⟨grown, fun later part => ?_⟩
  have rerun := continued walk.session later.session (grown.trans part) walk value after done
  exact rerun.2 later part

private theorem stands_identifier (parent : Kind) (index : Nat) (child : Node) :
    (identifier parent index child).Stands (identifier parent index child) := by
  unfold identifier
  split
  · exact stands_pure _
  · exact stands_fail _ _

private theorem stands_identifierAt (parent : Kind) (children : List Node) (index : Nat) :
    (identifierAt parent children index).Stands (identifierAt parent children index) := by
  unfold identifierAt
  split
  · exact stands_identifier _ _ _
  · exact stands_fail _ _

theorem stands_require {α : Type} {condition : Prop} [Decidable condition] (value : α)
    (broken : Violation) :
    (if condition then pure value else reject broken : Check α).Stands
      (if condition then pure value else reject broken) := by
  split
  · exact stands_pure value
  · exact stands_fail _ _

theorem stands_resolve (name : String) : (resolve name).Stands (resolve name) :=
  stands_lookup_bind (ensures_fail _ _) fun type => stands_pure type

private theorem stands_caseLabel (subject : Ty) (children : List Node) :
    (caseLabel subject children).Stands (caseLabel subject children) := by
  cases children with
  | nil => exact stands_fail _ _
  | cons label body =>
      rcases label with ⟨label, below⟩
      cases label with
      | identifier name =>
          exact stands_lookup_bind (ensures_fail _ _) fun type => stands_require _ _
      | intValue value => exact stands_require _ _
      | _ => exact stands_fail _ _

private theorem stands_judge (gathering : Gathering) (types : List Ty) :
    (judge gathering types).Stands (judge gathering types) := by
  refine (stands_count _ _).bind fun _ => ?_
  split
  · exact stands_pure _
  · exact stands_fail _ _

/-! ## Declarations -/

def bindNothing (_ : String) (_ : Ty) : Check Unit :=
  pure ()

theorem stands_declare (name : String) (type other : Ty) :
    (declare name type).Stands (bindNothing name other) := by
  intro walk value after done
  rcases declare_cases name type walk with ⟨-, stopped⟩ | ⟨symbols, extended, declared⟩
  · rw [stopped] at done
    cases done
  · rw [declared] at done
    cases done
    exact ⟨⟨_, extended⟩, fun later _ => ⟨later, rfl, rfl⟩⟩

private theorem stands_bindVariable (typeName : Option String) (children : List Node) :
    (bindVariable declare typeName children).Stands
      (bindVariable bindNothing typeName children) := by
  have named := stands_identifierAt .declaration children
  unfold bindVariable
  split
  · refine (named 0).bind fun enumType => (named 1).bind fun name => ?_
    refine stands_current_bind fun left right part => ?_
    dsimp only
    split
    · rename_i known
      rw [if_pos (part.isTypeName known)]
      exact (stands_emit _ _).bind fun _ => stands_declare _ _ _
    · exact stands_fail _ _
  · refine (named 0).bind fun name => stands_current_bind fun left right part => ?_
    exact (stands_emit _ _).bind fun _ => stands_declare _ _ _

private theorem stands_bindValues (index : Nat) (children : List Node) :
    (bindValues declare index children).Stands (bindValues bindNothing index children) := by
  induction children generalizing index with
  | nil => exact stands_pure ()
  | cons child rest ih =>
      rw [bindValues, bindValues]
      exact (stands_identifier _ _ _).bind fun name =>
        (stands_declare _ _ _).bind fun _ => ih (index + 1)

private theorem stands_bindEnum (children : List Node) :
    (bindEnum declare children).Stands (bindEnum bindNothing children) := by
  cases children with
  | nil => exact stands_fail _ _
  | cons first values =>
      rw [bindEnum, bindEnum]
      refine (stands_identifier _ _ _).bind fun typeName => (stands_count _ _).bind fun _ => ?_
      exact (stands_emit _ _).bind fun _ => (stands_declare _ _ _).bind fun _ =>
        stands_bindValues 1 values

/-! ## The walk -/

private theorem stands_annotateRead {child : Node}
    (stands : (annotate declare child).Stands (annotate bindNothing child))
    (position : Position) :
    (annotateRead declare position child).Stands (annotateRead bindNothing position child) := by
  revert stands
  refine read_cases position child (fun walks stands => ?_) (fun name below _ => ?_)
    fun subject below _ => ?_
  · rw [annotateRead_of_walks declare walks, annotateRead_of_walks bindNothing walks]
    exact stands
  · exact (stands_resolve name).map _
  · exact (stands_caseLabel subject below).map _

private theorem stands_annotateEach {children : List Node}
    (stands : ∀ child ∈ children, (annotate declare child).Stands (annotate bindNothing child))
    (position : Position) (admitted : Admission) (onlyFirst : Bool) (earlier : List Ty) :
    (annotateEach declare position admitted onlyFirst earlier children).Stands
      (annotateEach bindNothing position admitted onlyFirst earlier children) := by
  induction children generalizing earlier with
  | nil =>
      rw [annotateEach_nil, annotateEach_nil]
      exact stands_pure _
  | cons child rest ih =>
      obtain ⟨first, others⟩ := List.forall_mem_cons.mp stands
      rw [annotateEach_cons, annotateEach_cons]
      refine (stands_annotateRead first position).bind fun read => ?_
      split
      · split
        · exact stands_pure _
        · exact (ih others _).bind fun more => stands_pure _
      · exact stands_fail _ _

private theorem stands_of_children (label : Label) (children : List Node)
    (stands : ∀ child ∈ children, (annotate declare child).Stands (annotate bindNothing child)) :
    (annotate declare ⟨label, children⟩).Stands (annotate bindNothing ⟨label, children⟩) := by
  have each := stands_annotateEach stands
  rw [annotate_mk, annotate_mk]
  refine (stands_emit _ _).bind fun _ => Stands.map ?_ _
  cases label.rule children.length with
  | refuse shape => exact stands_fail _ _
  | constant type => exact stands_pure _
  | declare typeName => exact (stands_bindVariable _ _).bind fun _ => stands_pure _
  | enumerate => exact (stands_bindEnum _).bind fun _ => stands_pure _
  | assign =>
      refine (stands_identifierAt _ _ _).bind fun name => ?_
      rw [below, below]
      cases found : children[1]? with
      | none => exact stands_lookup_bind (ensures_fail _ _) fun target => stands_fail _ _
      | some value =>
          have stood := stands value (List.mem_of_getElem? found)
          refine stands_lookup_bind (ensures_bind fun read => ensures_fail _ _) fun target => ?_
          exact stood.bind fun read => stands_require _ _
  | switch =>
      refine (stands_identifierAt _ _ _).bind fun name => ?_
      refine stands_lookup_bind (ensures_fail _ _) fun type => ?_
      split
      · exact stands_fail _ _
      · have arms := fun child member => stands child (List.mem_of_mem_tail member)
        exact (stands_annotateEach arms _ _ _ _).bind fun read => stands_pure _
  | gather gathering =>
      refine (stands_count _ _).bind fun _ => ?_
      split
      · exact stands_fail _ _
      · refine (each _ _ _ _).bind fun read => ?_
        exact (stands_judge _ _).bind fun type => stands_pure _

private theorem stands_annotate (node : Node) :
    (annotate declare node).Stands (annotate bindNothing node) :=
  Node.childrenInduction stands_of_children node

private theorem stands_annotateProgram (program : Node) :
    (Prod.snd <$> annotateProgram declare program).Stands
      (Prod.snd <$> annotateProgram bindNothing program) := by
  unfold annotateProgram
  split
  · simp only [map_bind, map_pure]
    refine (stands_emit _ _).bind fun _ => ?_
    refine (stands_annotateEach (fun child _ => stands_annotate child) _ _ _ _).bind fun read => ?_
    refine stands_current_bind fun left right _ => (stands_count _ _).bind fun _ => ?_
    refine stands_current_bind fun left right _ => (stands_emit _ _).bind fun _ => ?_
    exact stands_pure read.2
  · exact (stands_fail _ _)

end Check

/-! ## Types given in the walk -/

/-- A walk of the node returns the type and leaves a part of the final table. -/
def Node.IsGiven (node : Node) (type : Ty) (final : SymbolTable) : Prop :=
  ∃ before after, Check.visit node before = (.ok type, after) ∧
    after.session.symbols.IsPartOf final

/-- Two walks of a node that lead to parts of one table agree, since both can be repeated there. -/
theorem Node.IsGiven.unique {node : Node} {type other : Ty} {final : SymbolTable}
    (given : node.IsGiven type final) (otherGiven : node.IsGiven other final) : type = other := by
  have repeated {type : Ty} : node.IsGiven type final →
      ∃ below reached, Check.annotate Check.bindNothing node ⟨⟨final, {}⟩, []⟩ =
        (.ok (type, below), reached) := by
    rintro ⟨before, after, visited, part⟩
    rw [← Check.map_fst_annotate, Check.map_eq_ok_iff] at visited
    obtain ⟨⟨_, below⟩, annotated, rfl⟩ := visited
    obtain ⟨-, rerun⟩ := Check.stands_annotate node before _ after annotated
    obtain ⟨reached, again, -⟩ := rerun ⟨⟨final, {}⟩, []⟩ part
    exact ⟨below, reached, again⟩
  obtain ⟨below, reached, first⟩ := repeated given
  obtain ⟨otherBelow, otherReached, second⟩ := repeated otherGiven
  simp_all

def Walk.KeepsBindings (before after : Walk) : Prop :=
  before.session.symbols.IsPartOf after.session.symbols

theorem Walk.permits_keepsBindings : Permits KeepsBindings where
  refl _ := .refl _
  trans := SymbolTable.IsPartOf.trans
  emit _ _ := .refl _
  count _ _ _ := .refl _

namespace Check

theorem declare_keepsBindings (name : String) (type : Ty) :
    (declare name type).Along Walk.KeepsBindings := by
  intro walk
  rcases declare_cases name type walk with ⟨-, stopped⟩ | ⟨symbols, extended, declared⟩
  · rw [stopped]
    exact .refl _
  · rw [declared]
    exact ⟨_, extended⟩

theorem Along.of_map {α β : Type} {relation : Walk → Walk → Prop} {step : Check α} (result : α → β)
    (moved : (result <$> step).Along relation) : step.Along relation := by
  intro walk
  have reached := moved walk
  rw [map_eq_pure_bind] at reached
  rcases run : step walk with ⟨fault | value, after⟩
  · rwa [bind_of_error _ run] at reached
  · rwa [bind_of_ok _ run] at reached

theorem visitEach_keepsBindings (children : List Node) (position : Position)
    (admitted : Admission) (earlier : List Ty) :
    (visitEach position admitted earlier children).Along Walk.KeepsBindings := by
  have permits := Walk.permits_keepsBindings
  have visited (node : Node) : (visit node).Along Walk.KeepsBindings :=
    along_visit permits (along_declareVariable permits declare_keepsBindings)
      (along_declareEnum permits declare_keepsBindings) node
  exact along_visitEach permits (fun child _ => visited child) _ _ _

private theorem annotateEach_keepsBindings (children : List Node) (position : Position)
    (admitted : Admission) (onlyFirst : Bool) (earlier : List Ty) :
    (annotateEach declare position admitted onlyFirst earlier children).Along
      Walk.KeepsBindings := by
  refine Along.of_map Prod.fst ?_
  rw [map_fst_annotateEach fun child _ => map_fst_annotate child]
  exact visitEach_keepsBindings _ _ _ _

/-- All these types are given in the walk. -/
def AreGiven (final : SymbolTable) (found : Findings) : Prop :=
  ∀ pair ∈ found, pair.1.IsGiven pair.2 final

/-- If the step leaves a part of the final table, the types that it finds are given in the walk. -/
def FindsGiven {α : Type} (final : SymbolTable) (step : Check (α × Findings)) : Prop :=
  ∀ walk read after, step walk = (.ok read, after) → after.session.symbols.IsPartOf final →
    AreGiven final read.2

section

variable {α β : Type} {final : SymbolTable}

private theorem areGiven_nil : AreGiven final [] := by
  simp [AreGiven]

theorem findsGiven_pure {found : Findings} (given : AreGiven final found) (value : α) :
    FindsGiven final (pure (value, found)) := by
  intro walk read after done _
  cases done
  exact given

theorem findsGiven_fail (fault : Fault) :
    FindsGiven final (fail fault : Check (α × Findings)) := by
  intro walk read after done
  cases done

/-- What is found by the first step is still given after both, since the second one keeps the
bindings. -/
theorem FindsGiven.bind {step : Check (α × Findings)} {next : α × Findings → Check (β × Findings)}
    (finds : FindsGiven final step) (kept : ∀ read, (next read).Along Walk.KeepsBindings)
    (continued : ∀ read, AreGiven final read.2 → FindsGiven final (next read)) :
    FindsGiven final (step >>= next) := by
  intro walk read after done part
  obtain ⟨first, middle, ran, rest⟩ := bind_eq_ok_iff.mp done
  have grown := kept first middle
  rw [rest] at grown
  exact continued first (finds walk first middle ran (grown.trans part)) middle read after rest part

private theorem findsGiven_bind {step : Check α} {next : α → Check (β × Findings)}
    (continued : ∀ value, FindsGiven final (next value)) : FindsGiven final (step >>= next) := by
  intro walk read after done part
  obtain ⟨value, middle, -, rest⟩ := bind_eq_ok_iff.mp done
  exact continued value middle read after rest part

end

variable {final : SymbolTable}

theorem FindsGiven.annotateRead {child : Node} (finds : FindsGiven final (annotate declare child))
    (position : Position) : FindsGiven final (annotateRead declare position child) := by
  revert finds
  refine read_cases position child (fun walks finds => ?_) (fun name below _ => ?_)
    fun subject below _ => ?_
  · rw [annotateRead_of_walks declare walks]
    exact finds
  · exact findsGiven_bind fun type => findsGiven_pure areGiven_nil type
  · exact findsGiven_bind fun type => findsGiven_pure areGiven_nil type

private theorem findsGiven_each {children : List Node}
    (finds : ∀ child ∈ children, FindsGiven final (annotate declare child)) (position : Position)
    (admitted : Admission) (onlyFirst : Bool) (earlier : List Ty) :
    FindsGiven final (annotateEach declare position admitted onlyFirst earlier children) := by
  have permits := Walk.permits_keepsBindings
  induction children generalizing earlier with
  | nil =>
      rw [annotateEach_nil]
      exact findsGiven_pure areGiven_nil _
  | cons child rest ih =>
      obtain ⟨first, others⟩ := List.forall_mem_cons.mp finds
      rw [annotateEach_cons]
      refine (first.annotateRead position).bind (fun read => ?_) fun read found => ?_
      · split
        · split
          · exact along_pure permits _
          · exact (annotateEach_keepsBindings _ _ _ _ _).bind permits fun _ => along_pure permits _
        · exact along_fail permits _
      · split
        · split
          · exact findsGiven_pure found _
          · refine (ih others _).bind (fun _ => along_pure permits _) fun more foundMore => ?_
            exact findsGiven_pure (List.forall_mem_append.mpr ⟨found, foundMore⟩) _
        · exact findsGiven_fail _

private theorem findsGiven_of_children (label : Label) (children : List Node)
    (finds : ∀ child ∈ children, FindsGiven final (annotate declare child)) :
    FindsGiven final (annotate declare ⟨label, children⟩) := by
  have permits := Walk.permits_keepsBindings
  have followed : FindsGiven final (follow declare (label.rule children.length) label.kind children
      (below declare children)) := by
    cases label.rule children.length with
    | refuse shape => exact findsGiven_fail _
    | constant type => exact findsGiven_pure areGiven_nil _
    | declare _ | enumerate => exact findsGiven_bind fun _ => findsGiven_pure areGiven_nil _
    | assign =>
        refine findsGiven_bind fun name => findsGiven_bind fun target => ?_
        rw [below]
        cases value : children[1]? with
        | none => exact findsGiven_fail _
        | some value =>
            refine (finds _ (List.mem_of_getElem? value)).bind
              (fun read => along_require permits _ _) fun read found => ?_
            split
            · exact findsGiven_pure found _
            · exact findsGiven_fail _
    | switch =>
        refine findsGiven_bind fun name => findsGiven_bind fun subject => ?_
        split
        · exact findsGiven_fail _
        · have arms := fun child member => finds child (List.mem_of_mem_tail member)
          exact (findsGiven_each arms _ _ _ _).bind (fun _ => along_pure permits _)
            fun read found => findsGiven_pure found _
    | gather gathering =>
        refine findsGiven_bind fun _ => ?_
        split
        · exact findsGiven_fail _
        · refine (findsGiven_each finds _ _ _ _).bind (fun read => ?_) fun read found => ?_
          · exact (along_judge permits _ _).bind permits fun _ => along_pure permits _
          · exact findsGiven_bind fun type => findsGiven_pure found type
  intro walk value after done part
  have visited : visit ⟨label, children⟩ walk = (.ok value.1, after) := by
    rw [← map_fst_annotate, map_eq_ok_iff]
    exact ⟨value, done, rfl⟩
  rw [annotate_mk] at done
  obtain ⟨_, middle, -, noted⟩ := bind_eq_ok_iff.mp done
  obtain ⟨read, ran, rfl⟩ := map_eq_ok_iff.mp noted
  exact List.forall_mem_cons.mpr ⟨⟨walk, after, visited, part⟩, followed middle read after ran part⟩

private theorem findsGiven_annotate (final : SymbolTable) (node : Node) :
    FindsGiven final (annotate declare node) :=
  Node.childrenInduction findsGiven_of_children node

theorem findsGiven_annotateProgram (final : SymbolTable) (program : Node) :
    FindsGiven final (annotateProgram declare program) := by
  have permits := Walk.permits_keepsBindings
  unfold annotateProgram
  split
  · refine findsGiven_bind fun _ => ?_
    refine (findsGiven_each (fun child _ => findsGiven_annotate final child) _ _ _ _).bind
      (fun read => ?_) fun read found => ?_
    · refine (along_current permits).bind permits fun _ => ?_
      refine Along.bind permits (fun _ => .refl _) fun _ => ?_
      refine (along_current permits).bind permits fun _ => ?_
      exact Along.bind permits (permits.emit _) fun _ => along_pure permits _
    · refine findsGiven_bind fun _ => findsGiven_bind fun _ => ?_
      exact findsGiven_bind fun _ => findsGiven_bind fun _ => findsGiven_pure found _
  · exact findsGiven_fail _

end Check

/-! ## Accepted programs -/

/-- The annotated walk is the walk, and returns in addition the types of the nodes it has walked. In
a program that is accepted these are all the nodes that a check reaches, and the type found for each
of them is the only one that it is ever given on the way to the final table. A second check against
the final table, which binds nothing, is passed and finds the same types. -/
theorem types_found_stand {program : Node} {metrics : Metrics}
    (accepted : analyze program = .ok metrics) :
    (∀ node, Prod.fst <$> Check.annotate Check.declare node = Check.visit node) ∧
    ∃ found : Findings,
      (∃ after, Check.annotateProgram Check.declare program ⟨{}, []⟩ =
          (.ok (metrics, found), after) ∧
        after.session = (Session.check {} program).session) ∧
      found.map Prod.fst = program.walked ∧
      (∀ pair ∈ found, ∀ type,
        pair.1.IsGiven type (Session.check {} program).session.symbols ↔ type = pair.2) ∧
      ∀ walk : Walk, walk.session.symbols = (Session.check {} program).session.symbols →
        ∃ counted reached, Check.annotateProgram Check.bindNothing program walk =
            (.ok (counted, found), reached) ∧
          reached.session.symbols = (Session.check {} program).session.symbols := by
  refine ⟨Check.map_fst_annotate, ?_⟩
  rcases run : Check.program program ⟨{}, []⟩ with ⟨outcome, after⟩
  have ended : Session.check {} program = ⟨outcome, after.session, after.log⟩ := by
    rw [Session.check, run]
  rw [analyze, ended] at accepted
  obtain rfl : outcome = .ok metrics := accepted
  rw [← Check.map_fst_annotateProgram, Check.map_eq_ok_iff] at run
  obtain ⟨⟨_, found⟩, annotated, rfl⟩ := run
  rw [ended]
  refine ⟨found, ⟨after, annotated, rfl⟩, ?_, ?_, ?_⟩
  · exact Check.annotateProgram_ensures Check.declare program _ _ _ annotated
  · intro pair member type
    have given := Check.findsGiven_annotateProgram after.session.symbols program _ _ _ annotated
      (.refl _) pair member
    constructor
    · exact fun other => other.unique given
    · rintro rfl
      exact given
  · intro walk final
    have stands := Check.stands_annotateProgram program ⟨{}, []⟩ found after
      (Check.map_eq_ok_iff.mpr ⟨_, annotated, rfl⟩)
    obtain ⟨reached, rerun, kept⟩ := stands.2 walk (by rw [final]; exact .refl _)
    obtain ⟨⟨counted, _⟩, passed, rfl⟩ := Check.map_eq_ok_iff.mp rerun
    exact ⟨counted, reached, passed, kept.trans final⟩

/-- A lamp declared before there are lights, and one that is declared and lit afterwards. -/
def Node.lamps : Node :=
  .program [.declaration "light" "spare", .enumStmt "light" ["red", "green"],
    .enumDeclaration "light" "lamp", .stmt (.assign "lamp" (.expr (.var "red")))]

theorem types_found_in_lamps_stand :
    analyze .lamps = .ok { vars := 2, enumValues := 2 } ∧
    ∃ found : Findings,
      found.map Prod.fst = Node.lamps.walked ∧
      found.map Prod.snd = [.unknown, .unknown, .unknown, .unknown, .unknown, .enumValue,
        .enumValue] ∧
      ∀ walk : Walk, walk.session.symbols = (Session.check {} .lamps).session.symbols →
        ∃ counted reached, Check.annotateProgram Check.bindNothing .lamps walk =
            (.ok (counted, found), reached) ∧
          reached.session.symbols = (Session.check {} .lamps).session.symbols := by
  have accepted : analyze .lamps = .ok { vars := 2, enumValues := 2 } := by decide +kernel
  have types : (Check.annotateProgram Check.declare .lamps ⟨{}, []⟩).1.map
      (fun read => read.2.map Prod.snd) = .ok [.unknown, .unknown, .unknown, .unknown, .unknown,
        .enumValue, .enumValue] := by decide +kernel
  obtain ⟨-, found, ⟨after, annotated, -⟩, nodes, -, stand⟩ := types_found_stand accepted
  rw [annotated] at types
  exact ⟨accepted, found, nodes, Except.ok.inj types, stand⟩

end TreeCheck
