import Mathlib.Data.List.Forall2
import TreeCheck.Proofs.Sequence

/-!
# Steps that end alike

Two steps end alike when, from the same session, they have the same outcome and leave the same
session. What they log does not matter, so trees of different sizes may be walked alike. A step that
is local to some names ends like itself whatever has been logged before it. The rules that read a
child by themselves look at its label and at nothing below it; for them, children with the same
labels are the same.
-/

set_option autoImplicit false

namespace TreeCheck

namespace Check

def Alike {α : Type} (step other : Check α) : Prop :=
  ∀ left right : Walk, left.session = right.session →
    (step left).1 = (other right).1 ∧ (step left).2.session = (other right).2.session

theorem alike_pure {α : Type} (value : α) : (pure value : Check α).Alike (pure value) :=
  fun _ _ same => ⟨rfl, same⟩

theorem alike_fail {α : Type} (fault : Fault) : (fail fault : Check α).Alike (fail fault) :=
  fun _ _ same => ⟨rfl, same⟩

theorem alike_emit (event other : Event) : (emit event).Alike (emit other) :=
  fun _ _ same => ⟨rfl, same⟩

theorem alike_count (update : Metrics → Metrics) : (count update).Alike (count update) := by
  intro left right same
  simp [count, same]

theorem alike_lookup (name : String) : (lookup name).Alike (lookup name) := by
  intro left right same
  simp [same]

theorem alike_require {α : Type} {condition : Prop} [Decidable condition] (value : α)
    (broken : Violation) :
    (if condition then pure value else reject broken : Check α).Alike
      (if condition then pure value else reject broken) := by
  split
  · exact alike_pure value
  · exact alike_fail _

theorem Alike.bind {α β : Type} {step other : Check α} {next nextOther : α → Check β}
    (alike : step.Alike other) (continued : ∀ value, (next value).Alike (nextOther value)) :
    (step >>= next).Alike (other >>= nextOther) := by
  intro left right same
  obtain ⟨outcome, session⟩ := alike left right same
  rcases leftRun : step left with ⟨leftOutcome, leftReached⟩
  rcases rightRun : other right with ⟨rightOutcome, rightReached⟩
  rw [leftRun, rightRun] at outcome session
  cases outcome
  cases leftOutcome with
  | error fault =>
      rw [bind_of_error next leftRun, bind_of_error nextOther rightRun]
      exact ⟨rfl, session⟩
  | ok value =>
      rw [bind_of_ok next leftRun, bind_of_ok nextOther rightRun]
      exact continued value leftReached rightReached session

theorem LocalTo.alike {α : Type} {names : List String} {step : Check α}
    (located : step.LocalTo names) : step.Alike step := by
  intro left right same
  obtain ⟨growth, leftGrows, rightGrows, outcome⟩ := located left right fun _ _ => by rw [same]
  refine ⟨outcome, ?_⟩
  have symbols : (step left).2.session.symbols = (step right).2.session.symbols := by
    ext1
    rw [leftGrows.symbols, rightGrows.symbols, same]
  have metrics : (step left).2.session.metrics = (step right).2.session.metrics := by
    rw [leftGrows.metrics, rightGrows.metrics, same]
  cases leftSession : (step left).2.session
  cases rightSession : (step right).2.session
  simp_all

theorem alike_resolve (name : String) : (resolve name).Alike (resolve name) :=
  (localTo_resolve List.mem_cons_self : (resolve name).LocalTo [name]).alike

theorem alike_identifierAt (parent : Kind) (children : List Node) (index : Nat) :
    (identifierAt parent children index).Alike (identifierAt parent children index) := by
  unfold identifierAt identifier
  split
  · split
    · exact alike_pure _
    · exact alike_fail _
  · exact alike_fail _

theorem alike_caseLabel (subject : Ty) (children : List Node) :
    (caseLabel subject children).Alike (caseLabel subject children) := by
  have located : (caseLabel subject children).LocalTo (Node.mk .caseStmt children).names :=
    localTo_caseLabel subject fun _ => Node.names_subset_of_mem
  exact located.alike

theorem alike_declareVariable (typeName : Option String) (children : List Node) :
    (declareVariable typeName children).Alike (declareVariable typeName children) := by
  have located : (declareVariable typeName children).LocalTo
      (Node.mk (.declaration typeName) children).names := by
    refine localTo_declareVariable (fun name named => ?_) fun _ => Node.names_subset_of_mem
    rw [Node.names_mk]
    exact List.mem_append_left _ (Option.mem_toList.mpr named)
  exact located.alike

theorem alike_declareEnum (children : List Node) :
    (declareEnum children).Alike (declareEnum children) := by
  have located : (declareEnum children).LocalTo (Node.mk .enumStmt children).names :=
    localTo_declareEnum fun _ => Node.names_subset_of_mem
  exact located.alike

/-! ## Children with the same labels -/

private theorem identifier_of_label {parent : Kind} {index : Nat} {child other : Node}
    (same : child.label = other.label) :
    identifier parent index child = identifier parent index other := by
  simp only [identifier, Node.identifier?, Node.kind, same]

theorem identifierAt_of_label {parent : Kind} {index : Nat} {children others : List Node}
    (same : children[index]?.map Node.label = others[index]?.map Node.label) :
    identifierAt parent children index = identifierAt parent others index := by
  unfold identifierAt
  cases found : children[index]? with
  | none =>
      have missing : others[index]? = none := by simpa [found] using same.symm
      rw [missing]
  | some child =>
      obtain ⟨other, foundOther, label⟩ : ∃ other, others[index]? = some other ∧
          other.label = child.label := by simpa [found] using same.symm
      rw [foundOther]
      exact identifier_of_label label.symm

theorem caseLabel_of_label {subject : Ty} {children others : List Node}
    (same : children.head?.map Node.label = others.head?.map Node.label) :
    caseLabel subject children = caseLabel subject others := by
  cases children with
  | nil =>
      obtain rfl : others = [] := by simpa using same.symm
      rfl
  | cons child rest =>
      obtain ⟨other, found, label⟩ : ∃ other, others.head? = some other ∧
          other.label = child.label := by simpa using same.symm
      obtain ⟨more, rfl⟩ := List.head?_eq_some_iff.mp found
      rw [caseLabel, caseLabel, label]

theorem declareVariable_of_label {typeName : Option String} {children others : List Node}
    (several : 1 < children.length ↔ 1 < others.length)
    (same : ∀ index < 2, children[index]?.map Node.label = others[index]?.map Node.label) :
    declareVariable typeName children = declareVariable typeName others := by
  simp only [declareVariable, gt_iff_lt, several, identifierAt_of_label (same 0 (by omega)),
    identifierAt_of_label (same 1 (by omega))]

private theorem declareValues_of_label {index : Nat} {children others : List Node}
    (same : children.map Node.label = others.map Node.label) :
    declareValues index children = declareValues index others := by
  induction children generalizing index others with
  | nil =>
      obtain rfl : others = [] := by simpa using same.symm
      rfl
  | cons child rest ih =>
      obtain ⟨other, more, rfl, label, labels⟩ := List.map_eq_cons_iff.mp same.symm
      rw [declareValues, declareValues, identifier_of_label label.symm, ih labels.symm]

theorem declareEnum_of_label {children others : List Node}
    (same : children.map Node.label = others.map Node.label) :
    declareEnum children = declareEnum others := by
  cases children with
  | nil =>
      obtain rfl : others = [] := by simpa using same.symm
      rfl
  | cons first values =>
      obtain ⟨other, more, rfl, label, labels⟩ := List.map_eq_cons_iff.mp same.symm
      have length : more.length = values.length := by simpa using congrArg List.length labels
      rw [declareEnum, declareEnum, identifier_of_label label.symm, length,
        declareValues_of_label labels.symm]

/-! ## The walk -/

theorem Alike.read {child other : Node} (same : child.label = other.label)
    (visited : (visit child).Alike (visit other)) {position : Position}
    (noCase : ∀ subject, position ≠ .arm subject) :
    (read position child).Alike (read position other) := by
  rcases child with ⟨label, below⟩
  rcases other with ⟨otherLabel, otherBelow⟩
  obtain rfl : label = otherLabel := same
  cases walks : position.walks label with
  | true =>
      rw [read_of_walks walks, read_of_walks walks]
      exact visited
  | false =>
      rcases Position.walks_eq_false_iff.mp walks with ⟨rfl, name, rfl⟩ | ⟨subject, rfl, -⟩
      · exact alike_resolve name
      · exact absurd rfl (noCase subject)

theorem alike_visitEach {position : Position} {children others : List Node}
    (alike : List.Forall₂ (fun child other => (Check.read position child).Alike
      (Check.read position other)) children others)
    (admitted : Admission) (earlier : List Ty) :
    (visitEach position admitted earlier children).Alike
      (visitEach position admitted earlier others) := by
  induction alike generalizing earlier with
  | nil =>
      rw [visitEach_nil]
      exact alike_pure earlier
  | cons first _ ih =>
      rw [visitEach_cons, visitEach_cons]
      refine first.bind fun type => ?_
      split
      · exact ih (earlier ++ [type])
      · exact alike_fail _

theorem alike_judge (gathering : Gathering) (types : List Ty) :
    (judge gathering types).Alike (judge gathering types) := by
  refine (alike_count _).bind fun _ => ?_
  split
  · exact alike_pure _
  · exact alike_fail _

theorem alike_gather {gathering : Gathering} {children others : List Node}
    (empty : children.isEmpty = others.isEmpty)
    (alike : List.Forall₂ (fun child other => (Check.read gathering.position child).Alike
      (Check.read gathering.position other))
      (gathering.operands children) (gathering.operands others)) (kind : Kind) :
    (gather gathering kind children).Alike (gather gathering kind others) := by
  unfold Check.gather
  rw [empty]
  refine (alike_emit _ _).bind fun _ => (alike_count _).bind fun _ => ?_
  split
  · exact alike_fail _
  · exact (alike_visitEach alike _ _).bind fun types => alike_judge gathering types

theorem alike_items {nodes others : List Node}
    (alike : List.Forall₂ (fun node other => (visit node).Alike (visit other)) nodes others) :
    (items nodes).Alike (items others) := by
  induction alike with
  | nil => exact alike_pure ()
  | cons first _ ih =>
      rw [items, items]
      exact first.bind fun _ => ih

end Check

/-! ## Programs -/

/-- The runs have the same outcome and leave the same session. -/
structure Run.EndsLike (run other : Run) : Prop where
  outcome : run.outcome = other.outcome
  session : run.session = other.session

namespace Run.EndsLike

variable {run middle other : Run}

theorem symm (alike : run.EndsLike other) : other.EndsLike run :=
  ⟨alike.outcome.symm, alike.session.symm⟩

theorem trans (first : run.EndsLike middle) (second : middle.EndsLike other) :
    run.EndsLike other :=
  ⟨first.outcome.trans second.outcome, first.session.trans second.session⟩

end Run.EndsLike

theorem Run.close_endsLike {left right : Except Fault Unit × Walk} (outcome : left.1 = right.1)
    (session : left.2.session = right.2.session) : (close left).EndsLike (close right) := by
  rcases left with ⟨leftOutcome, leftReached⟩
  rcases right with ⟨rightOutcome, rightReached⟩
  cases outcome
  cases leftOutcome with
  | error fault => exact ⟨rfl, session⟩
  | ok done =>
      have counted : leftReached.session.counted = rightReached.session.counted :=
        congrArg Session.counted session
      simp only [close, Walk.accept, counted]
      exact ⟨rfl, rfl⟩

theorem Session.check_endsLike (session : Session) {nodes others : List Node}
    (alike : (Check.items nodes).Alike (Check.items others)) :
    (session.check (.program nodes)).EndsLike (session.check (.program others)) := by
  rw [session.check_eq_close nodes, session.check_eq_close others]
  obtain ⟨outcome, reached⟩ := alike ⟨session, [.checking (Node.program nodes).size]⟩
    ⟨session, [.checking (Node.program others).size]⟩ rfl
  exact Run.close_endsLike outcome reached

end TreeCheck
