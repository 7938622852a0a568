import Mathlib.Data.List.Forall2
import TreeCheck.Node.Build
import TreeCheck.Proofs.Gathering

/-!
# Values and spellings make no difference

The rules look at the kind of a literal and not at its value, at whether there are operator tokens
and not at what they are, and at whether a comparison tests for equality and not at its operator.
Two trees that differ in nothing else are walked side by side, from the same session, with the same
log. The one value that can be told from outside is the label of a case that does not fit.
-/

set_option autoImplicit false

namespace TreeCheck

/-! ## Trees that differ in values and spellings -/

/-- Labels over so many children that no rule tells apart. -/
inductive Label.Resembles (arity : Nat) : Label → Label → Prop
  | refl (label : Label) : Resembles arity label label
  | boolValue (left right : Bool) : Resembles arity (.boolValue left) (.boolValue right)
  | intValue (left right : Int64) : Resembles arity (.intValue left) (.intValue right)
  | boolExpr {left right : List String} : (left = [] ↔ right = []) →
      Resembles arity (.boolExpr left) (.boolExpr right)
  | notExpr {left right : List String} : (left = [] ↔ right = []) →
      Resembles arity (.notExpr left) (.notExpr right)
  | unaExpr {left right : List String} : (left = [] ↔ right = []) →
      Resembles arity (.unaExpr left) (.unaExpr right)
  | compExpr {left right : Option Comparison} :
      arity ≤ 1 ∨ left.any Comparison.isEquality = right.any Comparison.isEquality →
      Resembles arity (.compExpr left) (.compExpr right)

/-- The operands of a comparison are judged by the class of its operator. -/
theorem Comparison.admits_congr {left right : Option Comparison}
    (alike : left.any isEquality = right.any isEquality) (first : Ty) (rest : List Ty) :
    admits left first rest = admits right first rest := by
  have judged (operator : Option Comparison) : admits operator first rest =
      if operator.any isEquality then first.isEqualityOperand && rest.all (· == first)
      else (first :: rest).all (· == .number) := by
    cases operator with
    | none => rfl
    | some operator => cases operator <;> rfl
  rw [judged left, judged right, alike]

/-- Trees of one shape whose labels resemble each other at every place. -/
inductive Node.Resembles : Node → Node → Prop
  | mk {left right : Label} {children others : List Node} :
      left.Resembles children.length right → List.Forall₂ Resembles children others →
      Resembles ⟨left, children⟩ ⟨right, others⟩

/-- At one place in the two trees stand cases with these integers as their labels. -/
inductive Node.CaseLabels : Node → Node → Int64 → Int64 → Prop
  | here {value other : Int64} {below below' body body' : List Node} :
      CaseLabels ⟨.caseStmt, ⟨.intValue value, below⟩ :: body⟩
        ⟨.caseStmt, ⟨.intValue other, below'⟩ :: body'⟩ value other
  | inside {left right : Label} {children others : List Node} {child facing : Node}
      {value other : Int64} : (child, facing) ∈ children.zip others →
      CaseLabels child facing value other →
      CaseLabels ⟨left, children⟩ ⟨right, others⟩ value other

namespace Label.Resembles

variable {arity : Nat} {left right : Label}

private theorem kind_eq (resembles : left.Resembles arity right) : left.kind = right.kind := by
  cases resembles <;> rfl

private theorem walks_eq (resembles : left.Resembles arity right) (position : Position) :
    position.walks left = position.walks right := by
  cases resembles <;> cases position <;> rfl

end Label.Resembles

namespace Node.Resembles

theorem refl (node : Node) : node.Resembles node := by
  induction node using Node.childrenInduction with
  | step label children ih => exact .mk (.refl label) (List.forall₂_same.mpr ih)

variable {left right : Node}

theorem label (resembles : left.Resembles right) :
    left.label.Resembles left.children.length right.label := by
  cases resembles with
  | mk labels _ => exact labels

private theorem identifier?_eq (resembles : left.Resembles right) :
    left.identifier? = right.identifier? := by
  cases resembles with
  | mk labels _ => cases labels <;> rfl

theorem size_eq (resembles : left.Resembles right) : left.size = right.size := by
  induction left using Node.childrenInduction generalizing right with
  | step label children ih =>
      cases resembles with
      | @mk _ _ _ others labels below =>
          have all : Node.sizeAll children = Node.sizeAll others := by
            clear labels
            induction below with
            | nil => rfl
            | cons first _ rest =>
                obtain ⟨one, more⟩ := List.forall_mem_cons.mp ih
                rw [Node.sizeAll, Node.sizeAll, one first, rest more]
          rw [Node.size, Node.size, all]

end Node.Resembles

/-! ## Steps side by side -/

/-- The integer that a fault cites as the label of a case. -/
def Fault.citedLabel? : Fault → Option Int64
  | .violation (.invalidCaseType (.integer value)) => some value
  | _ => none

/-- The outcomes are the same, or both refuse the integer label of a case, each its own of two that
may stand side by side. -/
inductive Agrees {α : Type} (labels : Int64 → Int64 → Prop) :
    Except Fault α → Except Fault α → Prop
  | ok (value : α) : Agrees labels (.ok value) (.ok value)
  | error {fault : Fault} : fault.citedLabel? = none → Agrees labels (.error fault) (.error fault)
  | label {value other : Int64} : labels value other →
      Agrees labels (.error (.violation (.invalidCaseType (.integer value))))
        (.error (.violation (.invalidCaseType (.integer other))))

theorem Agrees.mono {α : Type} {labels wider : Int64 → Int64 → Prop}
    {outcome other : Except Fault α} (agrees : Agrees labels outcome other)
    (wide : ∀ value facing, labels value facing → wider value facing) :
    Agrees wider outcome other := by
  cases agrees with
  | ok value => exact .ok value
  | error unlabelled => exact .error unlabelled
  | label cited => exact .label (wide _ _ cited)

/-- From any walk the two steps reach the same walk, with outcomes that agree. -/
def Check.Twins {α : Type} (labels : Int64 → Int64 → Prop) (step other : Check α) : Prop :=
  ∀ walk : Walk, (step walk).2 = (other walk).2 ∧ Agrees labels (step walk).1 (other walk).1

namespace Check

variable {α β : Type} {labels : Int64 → Int64 → Prop}

theorem twins_pure (value : α) : Twins labels (pure value : Check α) (pure value) :=
  fun _ => ⟨rfl, .ok value⟩

theorem twins_fail {fault : Fault} (unlabelled : fault.citedLabel? = none) :
    Twins labels (fail fault : Check α) (fail fault) :=
  fun _ => ⟨rfl, .error unlabelled⟩

theorem twins_emit (event : Event) : Twins labels (emit event) (emit event) :=
  fun _ => ⟨rfl, .ok ()⟩

theorem twins_count (update : Metrics → Metrics) : Twins labels (count update) (count update) :=
  fun _ => ⟨rfl, .ok ()⟩

theorem twins_lookup (name : String) : Twins labels (lookup name) (lookup name) :=
  fun _ => ⟨rfl, .ok _⟩

theorem twins_declare (name : String) (type : Ty) :
    Twins labels (declare name type) (declare name type) := by
  intro walk
  obtain ⟨-, stopped⟩ | ⟨symbols, -, declared⟩ := declare_cases name type walk
  · rw [stopped]
    exact ⟨rfl, .error rfl⟩
  · rw [declared]
    exact ⟨rfl, .ok ()⟩

/-- Behind twins, a step may rely on what the first of them has found. -/
theorem Twins.bind_of_ok {step other : Check α} {next nextOther : α → Check β}
    (twins : Twins labels step other)
    (continued : ∀ value walk after, step walk = (.ok value, after) →
      Twins labels (next value) (nextOther value)) :
    Twins labels (step >>= next) (other >>= nextOther) := by
  intro walk
  obtain ⟨reached, agrees⟩ := twins walk
  rcases run : step walk with ⟨ended, after⟩
  rcases runOther : other walk with ⟨endedOther, afterOther⟩
  rw [run, runOther] at reached agrees
  obtain rfl : after = afterOther := reached
  cases agrees with
  | ok value =>
      rw [Check.bind_of_ok next run, Check.bind_of_ok nextOther runOther]
      exact continued value walk after run after
  | error unlabelled =>
      rw [Check.bind_of_error next run, Check.bind_of_error nextOther runOther]
      exact ⟨rfl, .error unlabelled⟩
  | label cited =>
      rw [Check.bind_of_error next run, Check.bind_of_error nextOther runOther]
      exact ⟨rfl, .label cited⟩

theorem Twins.bind {step other : Check α} {next nextOther : α → Check β}
    (twins : Twins labels step other)
    (continued : ∀ value, Twins labels (next value) (nextOther value)) :
    Twins labels (step >>= next) (other >>= nextOther) :=
  twins.bind_of_ok fun value _ _ _ => continued value

theorem Twins.current_bind {next nextOther : Session → Check α}
    (continued : ∀ session, Twins labels (next session) (nextOther session)) :
    Twins labels (current >>= next) (current >>= nextOther) :=
  fun walk => continued walk.session walk

theorem Twins.mono {wider : Int64 → Int64 → Prop} {step other : Check α}
    (twins : Twins labels step other)
    (wide : ∀ value facing, labels value facing → wider value facing) :
    Twins wider step other := by
  intro walk
  obtain ⟨reached, agrees⟩ := twins walk
  exact ⟨reached, agrees.mono wide⟩

theorem twins_require {condition : Prop} [Decidable condition] (value : α) {broken : Violation}
    (unlabelled : (Fault.violation broken).citedLabel? = none) :
    Twins labels (if condition then pure value else reject broken : Check α)
      (if condition then pure value else reject broken) := by
  split
  · exact twins_pure value
  · exact twins_fail unlabelled

theorem twins_resolve (name : String) : Twins labels (resolve name) (resolve name) := by
  apply (twins_lookup name).bind
  intro found
  cases found with
  | none => exact twins_fail rfl
  | some type => exact twins_pure type

/-! ## Rules side by side -/

private theorem getElem?_cases {relation : Node → Node → Prop} {children others : List Node}
    (related : List.Forall₂ relation children others) (index : Nat) :
    (children[index]? = none ∧ others[index]? = none) ∨
      ∃ child facing, children[index]? = some child ∧ others[index]? = some facing ∧
        relation child facing := by
  induction related generalizing index with
  | nil => exact .inl ⟨rfl, rfl⟩
  | cons first _ ih =>
      cases index with
      | zero => exact .inr ⟨_, _, rfl, rfl, first⟩
      | succ index => exact ih index

private theorem twins_identifier {child facing : Node} (resembles : child.Resembles facing)
    (parent : Kind)
    (index : Nat) :
    Twins labels (identifier parent index child) (identifier parent index facing) := by
  have kinds : child.kind = facing.kind := resembles.label.kind_eq
  rw [identifier, identifier, resembles.identifier?_eq, kinds]
  cases facing.identifier? with
  | none => exact twins_fail rfl
  | some name => exact twins_pure name

section

variable {children others : List Node} (resemble : List.Forall₂ Node.Resembles children others)

include resemble

private theorem twins_identifierAt (parent : Kind) (index : Nat) :
    Twins labels (identifierAt parent children index) (identifierAt parent others index) := by
  rw [identifierAt, identifierAt]
  obtain ⟨missing, missingToo⟩ | ⟨child, facing, found, foundToo, resembles⟩ :=
    getElem?_cases resemble index
  · rw [missing, missingToo]
    exact twins_fail rfl
  · rw [found, foundToo]
    exact twins_identifier resembles parent index

private theorem twins_declareVariable (typeName : Option String) :
    Twins labels (declareVariable typeName children) (declareVariable typeName others) := by
  rw [declareVariable, declareVariable, resemble.length_eq]
  split
  · apply (twins_identifierAt resemble _ _).bind
    intro enumType
    apply (twins_identifierAt resemble _ _).bind
    intro name
    apply Twins.current_bind
    intro session
    dsimp only
    split
    · exact (twins_emit _).bind fun _ => twins_declare name _
    · exact twins_fail rfl
  · apply (twins_identifierAt resemble _ _).bind
    intro name
    apply Twins.current_bind
    intro session
    exact (twins_emit _).bind fun _ => twins_declare name _

private theorem twins_declareValues (index : Nat) :
    Twins labels (declareValues index children) (declareValues index others) := by
  induction resemble generalizing index with
  | nil => exact twins_pure ()
  | cons first _ ih =>
      rw [declareValues, declareValues]
      apply (twins_identifier first _ _).bind
      intro name
      exact (twins_declare name _).bind fun _ => ih (index + 1)

private theorem twins_declareEnum : Twins labels (declareEnum children) (declareEnum others) := by
  cases resemble with
  | nil => exact twins_fail rfl
  | cons first values =>
      rw [declareEnum, declareEnum, values.length_eq]
      apply (twins_identifier first _ _).bind
      intro typeName
      apply (twins_count _).bind
      intro _
      apply (twins_emit _).bind
      intro _
      exact (twins_declare typeName _).bind fun _ => twins_declareValues values 1

/-- Two integer labels are judged alike, and each is cited on its own. -/
theorem twins_caseLabel (subject : Ty)
    (cited : ∀ value other,
      (Node.mk .caseStmt children).CaseLabels ⟨.caseStmt, others⟩ value other →
        labels value other) :
    Twins labels (caseLabel subject children) (caseLabel subject others) := by
  cases resemble with
  | nil => exact twins_fail rfl
  | @cons child facing body body' first _ =>
      have integers {value other : Int64} {below below' : List Node}
          (cites : labels value other) :
          Twins labels (caseLabel subject (⟨.intValue value, below⟩ :: body))
            (caseLabel subject (⟨.intValue other, below'⟩ :: body')) := by
        dsimp only [caseLabel, Node.label_mk]
        split
        · exact twins_pure _
        · exact fun _ => ⟨rfl, .label cites⟩
      cases first with
      | @mk label _ _ _ resembling _ =>
          cases resembling with
          | refl =>
              cases label with
              | identifier name => exact (twins_lookup name).bind fun _ => twins_require _ rfl
              | intValue value => exact integers (cited _ _ .here)
              | _ => exact twins_fail rfl
          | intValue value other => exact integers (cited _ _ .here)
          | _ => exact twins_fail rfl

end

/-- Children at one place of two trees: they resemble each other, and so do their walks. -/
structure Paired (labels : Int64 → Int64 → Prop) (child facing : Node) : Prop where
  resembles : child.Resembles facing
  visited : Twins labels (visit child) (visit facing)
  cited : ∀ value other, child.CaseLabels facing value other → labels value other

theorem Paired.read {child facing : Node} (paired : Paired labels child facing)
    (position : Position) : Twins labels (read position child) (read position facing) := by
  have same := paired.resembles.label.walks_eq position
  cases walks : position.walks child.label with
  | true =>
      rw [walks] at same
      rw [read_of_walks walks, read_of_walks same.symm]
      exact paired.visited
  | false =>
      rcases paired with ⟨⟨resembling, below⟩, -, cited⟩
      obtain ⟨rfl, name, rfl⟩ | ⟨subject, rfl, rfl⟩ := Position.walks_eq_false_iff.mp walks
      · cases resembling
        exact twins_resolve name
      · cases resembling
        exact twins_caseLabel below subject cited

private theorem twins_judge (gathering : Gathering) (types : List Ty) :
    Twins labels (judge gathering types) (judge gathering types) := by
  apply (twins_count _).bind
  intro _
  split
  · exact twins_pure _
  · apply twins_fail
    rcases gathering.nameless with same | same <;> rw [same] <;> rfl

section

variable {children others : List Node} (paired : List.Forall₂ (Paired labels) children others)

include paired

private theorem twins_visitEach (position : Position) (admitted : Admission) (earlier : List Ty) :
    Twins labels (visitEach position admitted earlier children)
      (visitEach position admitted earlier others) := by
  induction paired generalizing earlier with
  | nil =>
      rw [visitEach_nil]
      exact twins_pure earlier
  | cons first _ ih =>
      rw [visitEach_cons, visitEach_cons]
      apply (first.read position).bind
      intro type
      split
      · exact ih (earlier ++ [type])
      · exact twins_fail rfl

private theorem twins_gather (gathering : Gathering) (kind : Kind) :
    Twins labels (gather gathering kind children) (gather gathering kind others) := by
  have length := paired.length_eq
  have empty : children.isEmpty = others.isEmpty := by cases paired <;> rfl
  have operands : List.Forall₂ (Paired labels) (gathering.operands children)
      (gathering.operands others) := by
    rw [Gathering.operands, Gathering.operands]
    split
    · exact List.forall₂_take 1 paired
    · exact paired
  rw [gather, gather, length, empty]
  apply (twins_emit _).bind
  intro _
  apply (twins_count _).bind
  intro _
  split
  · exact twins_fail rfl
  · exact (twins_visitEach operands _ _ _).bind fun types => twins_judge gathering types

private theorem twins_comparison {left right : Option Comparison}
    (alike : children.length ≤ 1 ∨
      left.any Comparison.isEquality = right.any Comparison.isEquality) :
    Twins labels (visit ⟨.compExpr left, children⟩) (visit ⟨.compExpr right, others⟩) := by
  rw [visit, visit, paired.length_eq]
  apply (twins_emit _).bind
  intro _
  apply (twins_visitEach paired .plain .any []).bind_of_ok
  intro types walk after done
  have counted := length_of_visitEach done
  cases types with
  | nil => exact twins_pure _
  | cons first rest =>
      cases rest with
      | nil => exact twins_pure first
      | cons second rest =>
          have several : ¬ children.length ≤ 1 := by
            simp only [List.length_cons, List.length_nil] at counted
            omega
          apply (twins_count _).bind
          intro _
          rw [Comparison.admits_congr (alike.resolve_left several)]
          exact twins_require _ rfl

private theorem twins_assignStmt :
    Twins labels (visit ⟨.assignStmt, children⟩) (visit ⟨.assignStmt, others⟩) := by
  have resemble := paired.imp fun _ _ => Paired.resembles
  rw [visit_assignStmt, visit_assignStmt, paired.length_eq]
  apply (twins_emit _).bind
  intro _
  apply (twins_identifierAt resemble _ _).bind
  intro name
  apply (twins_lookup name).bind
  intro target
  rw [assignValue, assignValue]
  obtain ⟨missing, missingToo⟩ | ⟨child, facing, found, foundToo, pair⟩ := getElem?_cases paired 1
  · rw [missing, missingToo]
    exact twins_fail rfl
  · rw [found, foundToo]
    exact pair.visited.bind fun type => twins_require _ rfl

private theorem twins_switchStmt :
    Twins labels (visit ⟨.switchStmt, children⟩) (visit ⟨.switchStmt, others⟩) := by
  have resemble := paired.imp fun _ _ => Paired.resembles
  have arms : List.Forall₂ (Paired labels) children.tail others.tail := by
    cases paired with
    | nil => exact .nil
    | cons _ rest => exact rest
  rw [visit_switchStmt, visit_switchStmt, paired.length_eq]
  apply (twins_emit _).bind
  intro _
  apply (twins_identifierAt resemble _ _).bind
  intro name
  apply (twins_lookup name).bind
  intro subject
  rw [switchArms, switchArms]
  split
  · exact twins_fail rfl
  · exact (twins_visitEach arms _ _ _).bind fun _ => twins_pure _

end

/-- Labels that have the same plan are carried out alike. -/
theorem twins_of_gathering {left right : Label} {children others : List Node}
    (paired : List.Forall₂ (Paired labels) children others) {gathering : Gathering}
    (planned : left.gathering? children.length = some gathering)
    (plannedToo : right.gathering? children.length = some gathering)
    (kinds : left.kind = right.kind) :
    Twins labels (visit ⟨left, children⟩) (visit ⟨right, others⟩) := by
  rw [visit_of_gathering planned, visit_of_gathering (paired.length_eq ▸ plannedToo), kinds]
  exact twins_gather paired gathering right.kind

private theorem twins_same {children others : List Node}
    (paired : List.Forall₂ (Paired labels) children others) (label : Label) :
    Twins labels (visit ⟨label, children⟩) (visit ⟨label, others⟩) := by
  have resemble := paired.imp fun _ _ => Paired.resembles
  cases planned : label.gathering? children.length with
  | some gathering => exact twins_of_gathering paired planned planned rfl
  | none =>
      cases label with
      | program | caseStmt =>
          rw [visit, visit, paired.length_eq]
          exact (twins_emit _).bind fun _ => twins_fail rfl
      | declaration typeName =>
          rw [visit, visit, paired.length_eq]
          apply (twins_emit _).bind
          intro _
          exact (twins_declareVariable resemble typeName).bind fun _ => twins_pure _
      | enumStmt =>
          rw [visit, visit, paired.length_eq]
          apply (twins_emit _).bind
          intro _
          exact (twins_declareEnum resemble).bind fun _ => twins_pure _
      | assignStmt => exact twins_assignStmt paired
      | switchStmt => exact twins_switchStmt paired
      | boolValue _ | intValue _ | identifier _ =>
          rw [visit, visit, paired.length_eq]
          exact (twins_emit _).bind fun _ => twins_pure _
      | boolExpr tokens | notExpr tokens | unaExpr tokens => cases tokens <;> cases planned
      | _ => cases planned

private theorem twins_of_paired {left right : Label} {children others : List Node}
    (resembles : left.Resembles children.length right)
    (paired : List.Forall₂ (Paired labels) children others) :
    Twins labels (visit ⟨left, children⟩) (visit ⟨right, others⟩) := by
  cases resembles with
  | refl => exact twins_same paired left
  | boolValue | intValue =>
      rw [visit, visit, paired.length_eq]
      exact (twins_emit _).bind fun _ => twins_pure _
  | @boolExpr tokens facing alike | @notExpr tokens facing alike | @unaExpr tokens facing alike =>
      cases tokens with
      | nil =>
          obtain rfl := alike.mp rfl
          exact twins_of_gathering paired rfl rfl rfl
      | cons token more =>
          cases facing with
          | nil => cases alike.mpr rfl
          | cons other others => exact twins_of_gathering paired rfl rfl rfl
  | compExpr alike => exact twins_comparison paired alike

/-- Below two nodes, the labels that may be cited are those of the cases side by side. -/
theorem paired_of_resemble {left right : Label} {children others : List Node}
    (visited : ∀ child ∈ children, ∀ facing, child.Resembles facing →
      Twins (child.CaseLabels facing) (visit child) (visit facing))
    (resemble : List.Forall₂ Node.Resembles children others) :
    List.Forall₂ (Paired ((Node.mk left children).CaseLabels ⟨right, others⟩)) children others := by
  obtain ⟨length, pairs⟩ := List.forall₂_iff_zip.mp resemble
  refine List.forall₂_iff_zip.mpr ⟨length, ?_⟩
  intro child facing member
  have inside (value cited : Int64) (found : child.CaseLabels facing value cited) :
      (Node.mk left children).CaseLabels ⟨right, others⟩ value cited :=
    .inside member found
  have twins := visited child (List.of_mem_zip member).1 facing (pairs member)
  exact ⟨pairs member, twins.mono inside, inside⟩

private theorem twins_visit {left right : Node} (resembles : left.Resembles right) :
    Twins (left.CaseLabels right) (visit left) (visit right) := by
  induction left using Node.childrenInduction generalizing right with
  | step label children ih =>
      cases resembles with
      | mk labels below =>
          exact twins_of_paired labels
            (paired_of_resemble (fun child member _ => ih child member) below)

end Check

/-! ## Programs -/

theorem Session.readItems_resemble (session : Session) {items others : List Node}
    (resemble : List.Forall₂ Node.Resembles items others) :
    (session.readItems items).2 = (session.readItems others).2 ∧
      Agrees ((Node.mk .program items).CaseLabels ⟨.program, others⟩) (session.readItems items).1
        (session.readItems others).1 := by
  have sizes := Node.Resembles.size_eq (.mk (.refl .program) resemble)
  have paired : List.Forall₂ (Check.Paired
      ((Node.mk .program items).CaseLabels ⟨.program, others⟩)) items others :=
    Check.paired_of_resemble (fun _ _ _ => Check.twins_visit) resemble
  have twins := Check.twins_visitEach paired .plain .any []
  rw [Session.readItems, Session.readItems, sizes]
  exact twins _

/-- Two programs of one shape that differ in the values of literals, in operator tokens where both
have some, and in operators of comparisons within the class of the operator or over a single
operand, have the same check: the same session with its table and counters, the same log, and the
same metrics or the same fault, except that a fault about the integer label of a case cites the
label in its own program. -/
theorem check_disregards_spelling (session : Session) {program other : Node}
    (resembles : program.Resembles other) :
    (session.check program).session = (session.check other).session ∧
      (session.check program).events = (session.check other).events ∧
      Agrees (program.CaseLabels other) (session.check program).outcome
        (session.check other).outcome := by
  cases resembles with
  | @mk left right items others labels below =>
      by_cases root : left = .program
      · subst root
        cases labels
        obtain ⟨reached, agrees⟩ := session.readItems_resemble below
        rcases run : session.readItems items with ⟨ended, after⟩
        rcases runOther : session.readItems others with ⟨endedOther, afterOther⟩
        rw [run, runOther] at reached agrees
        obtain rfl : after = afterOther := reached
        cases agrees with
        | ok types =>
            rw [Session.check_of_ok run, Session.check_of_ok runOther]
            exact ⟨rfl, rfl, .ok _⟩
        | error unlabelled =>
            rw [Session.check_of_error run, Session.check_of_error runOther]
            exact ⟨rfl, rfl, .error unlabelled⟩
        | label cited =>
            rw [Session.check_of_error run, Session.check_of_error runOther]
            exact ⟨rfl, rfl, .label cited⟩
      · have rootOther : right ≠ .program := by
          rintro rfl
          cases labels
          exact root rfl
        have stopped : session.check ⟨left, items⟩ = _ := Session.check_of_label_ne root
        have stoppedOther : session.check ⟨right, others⟩ = _ :=
          Session.check_of_label_ne rootOther
        have kinds : (Node.mk left items).kind = (Node.mk right others).kind := labels.kind_eq
        rw [stopped, stoppedOther, kinds]
        exact ⟨rfl, rfl, .error rfl⟩

/-- An enumeration with one value, a variable of it, `bool on; on = !(level operator literal);` for
a number, and a switch on the variable with an integer as the label of its case. -/
def Node.lamp (operator : Comparison) (tokens : List String) (value : Int64) : Node :=
  .program [.enumStmt "light" ["red"], .enumDeclaration "light" "lamp", .declaration "num" "level",
    .declaration "bool" "on",
    .stmt (.assign "on" (.expr ⟨.notExpr tokens,
      [.compare operator (.var "level") (.int value)]⟩)),
    .stmt (.switch "lamp" [.case (.intLiteral value) []])]

theorem lamp_disregards_spelling :
    (Session.check {} (.lamp .less ["!"] 1)).outcome =
        .error (.violation (.invalidCaseType (.integer 1))) ∧
      (Session.check {} (.lamp .greaterEqual ["not", "!"] 7)).outcome =
        .error (.violation (.invalidCaseType (.integer 7))) ∧
      (Session.check {} (.lamp .less ["!"] 1)).session =
        (Session.check {} (.lamp .greaterEqual ["not", "!"] 7)).session ∧
      (Session.check {} (.lamp .less ["!"] 1)).events =
        (Session.check {} (.lamp .greaterEqual ["not", "!"] 7)).events := by
  have same := Node.Resembles.refl
  have literal : (Node.int 1).Resembles (.int 7) :=
    .mk (.refl _) (.cons (.mk (.intValue 1 7) .nil) .nil)
  have comparison : (Node.compare .less (.var "level") (.int 1)).Resembles
      (.compare .greaterEqual (.var "level") (.int 7)) :=
    .mk (.compExpr (.inr rfl)) (.cons (same _) (.cons literal .nil))
  have negation : Node.Resembles ⟨.notExpr ["!"], [.compare .less (.var "level") (.int 1)]⟩
      ⟨.notExpr ["not", "!"], [.compare .greaterEqual (.var "level") (.int 7)]⟩ :=
    .mk (.notExpr (by simp)) (.cons comparison .nil)
  have assignment : (Node.stmt (.assign "on" (.expr ⟨.notExpr ["!"], _⟩))).Resembles
      (.stmt (.assign "on" (.expr ⟨.notExpr ["not", "!"], _⟩))) :=
    .mk (.refl _) (.cons (.mk (.refl _) (.cons (same _)
      (.cons (.mk (.refl _) (.cons negation .nil)) .nil))) .nil)
  have arm : (Node.case (.intLiteral 1) []).Resembles (.case (.intLiteral 7) []) :=
    .mk (.refl _) (.cons (.mk (.intValue 1 7) .nil) .nil)
  have switch : (Node.stmt (.switch "lamp" [.case (.intLiteral 1) []])).Resembles
      (.stmt (.switch "lamp" [.case (.intLiteral 7) []])) :=
    .mk (.refl _) (.cons (.mk (.refl _) (.cons (same _) (.cons arm .nil))) .nil)
  have resembles : (Node.lamp .less ["!"] 1).Resembles (.lamp .greaterEqual ["not", "!"] 7) :=
    .mk (.refl _) (.cons (same _) (.cons (same _) (.cons (same _) (.cons (same _)
      (.cons assignment (.cons switch .nil))))))
  obtain ⟨session, events, -⟩ := check_disregards_spelling {} resembles
  exact ⟨by decide +kernel, by decide +kernel, session, events⟩

end TreeCheck
