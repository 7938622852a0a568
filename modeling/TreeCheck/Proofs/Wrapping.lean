import TreeCheck.Node.Build
import TreeCheck.Proofs.Rewriting

/-!
# Wrappers without operators

A grammar with a level for each precedence puts many nodes around a single operand that apply no
operator to it. The rules of nine labels are transparent to one child: they count nothing, admit any
type and hand it on. Putting such a node around a node that is walked changes nothing, also below
the rules that look at the labels of their children, since no wrapper is an identifier or a case.
-/

set_option autoImplicit false

namespace TreeCheck

namespace Label

/-- Labels that apply no operator to a single child. -/
def isWrapper : Label → Bool
  | .expr | .block | .stmt | .addExpr | .mulExpr | .compExpr _ => true
  | .boolExpr tokens | .notExpr tokens | .unaExpr tokens => tokens.isEmpty
  | _ => false

/-- A walked child is put into a wrapper. All items of a program are walked. -/
inductive Wraps : Label → List Node → List Node → Prop
  | wrap {label wrapper : Label} {before after : List Node} {child : Node}
      (walked : label = .program ∨ label.leadsTo before.length child.label = true)
      (wraps : wrapper.isWrapper = true) :
      Wraps label (before ++ child :: after) (before ++ ⟨wrapper, [child]⟩ :: after)

private theorem leadsTo_of_isWrapper {label below wrapper : Label} {index : Nat}
    (walked : label.leadsTo index below = true) (wraps : wrapper.isWrapper = true) :
    label.leadsTo index wrapper = true := by
  cases label with
  | genValue =>
      cases wrapper with
      | identifier name => cases wraps
      | _ => rfl
  | switchStmt =>
      have later : (index != 0) = true := (Bool.and_eq_true_iff.mp walked).1
      cases wrapper with
      | caseStmt => cases wraps
      | _ => simp [leadsTo, later, kind]
  | _ => exact walked

end Label

/-- The plan hands the type of a single child on and does nothing else. -/
structure Gathering.HandsOn (gathering : Gathering) : Prop where
  needsChild : gathering.needsChild = false
  onlyFirst : gathering.onlyFirst = false
  position : gathering.position = .plain
  before : gathering.before = 0
  after : ∀ type, gathering.after [type] = 0
  admitted : ∀ type, gathering.admitted [] type = true
  conclude : ∀ type, gathering.conclude [type] = some type

theorem Label.handsOn_of_isWrapper {label : Label} (wraps : label.isWrapper = true) :
    ∃ gathering, label.gathering? 1 = some gathering ∧ gathering.HandsOn := by
  have last (type : Ty) : some (Ty.lastKnown [type]) = some type := by cases type <;> rfl
  have first (type : Ty) : some (Ty.firstKnown [type]) = some type := by cases type <;> rfl
  cases label with
  | expr | block | stmt | addExpr | mulExpr =>
      exact ⟨_, rfl, rfl, rfl, rfl, rfl, fun _ => rfl, fun _ => rfl, last⟩
  | compExpr operator =>
      exact ⟨_, rfl, rfl, rfl, rfl, rfl, fun _ => rfl, fun _ => rfl, fun _ => rfl⟩
  | boolExpr tokens =>
      cases tokens with
      | nil => exact ⟨_, rfl, rfl, rfl, rfl, rfl, fun _ => rfl, fun _ => rfl, first⟩
      | cons token tokens => cases wraps
  | notExpr tokens | unaExpr tokens =>
      cases tokens with
      | nil => exact ⟨_, rfl, rfl, rfl, rfl, rfl, fun _ => rfl, fun _ => rfl, last⟩
      | cons token tokens => cases wraps
  | _ => cases wraps

namespace Check

private theorem count_self : count (fun metrics => metrics) = pure () := rfl

private theorem alike_wrapper {wrapper : Label} (wraps : wrapper.isWrapper = true) (child : Node) :
    (visit child).Alike (visit ⟨wrapper, [child]⟩) := by
  obtain ⟨gathering, planned, handsOn⟩ := Label.handsOn_of_isWrapper wraps
  have judged (type : Ty) : judge gathering [type] = pure type := by
    simp [judge_of_some (handsOn.conclude type), handsOn.after, count_self]
  have operands : gathering.operands [child] = [child] := by
    simp [Gathering.operands, handsOn.onlyFirst]
  have passed : gather gathering wrapper.kind [child] =
      emit (.visit wrapper.kind 1) >>= fun _ => visit child := by
    simp [gather, handsOn.needsChild, handsOn.before, count_self, handsOn.position, operands,
      visitEach_cons, visitEach_nil, read, handsOn.admitted, judged]
  rw [visit_of_gathering planned, passed]
  exact fun left right same => alike_visit_self child left (emit _ right).2 same

private theorem harmless_wraps : Harmless Label.Wraps where
  visit := by
    intro label children others wrapped
    cases wrapped with
    | @wrap wrapper before after child walked wraps =>
        rcases walked with rfl | walked
        · rw [visit, visit]
          exact (alike_emit _ _).bind fun _ => alike_fail _
        · exact Interchangeable.visit
            ⟨alike_wrapper wraps child, .inl ⟨walked, Label.leadsTo_of_isWrapper walked wraps⟩⟩
  items := by
    intro children others wrapped
    cases wrapped with
    | @wrap wrapper before after child walked wraps =>
        exact alike_items
          (forall₂_of_place after alike_visit_self (alike_wrapper wraps child) before)
  noCase := by
    intro children others wrapped
    cases wrapped with
    | wrap walked wraps =>
        rcases walked with other | walked
        · cases other
        · cases walked

end Check

/-- Wrappers are transparent. When nodes that are walked are put into wrappers, any number of times
and anywhere in a program, the program is checked as before: with the same outcome, the same names
and the same counters. -/
theorem wrappers_are_transparent (session : Session) {program wrapped : Node}
    (wrapping : Relation.ReflTransGen (Node.Rewrites Label.Wraps) program wrapped) :
    (session.check wrapped).EndsLike (session.check program) :=
  (session.check_of_rewritten Check.harmless_wraps wrapping).symm

/-- The program `num level; level = 1;`, whose last value may be written in another way. -/
def Node.settingLevel (value : Node) : Node :=
  .program [.declaration "num" "level", .stmt (.assign "level" value)]

/-- The value of the assignment and the literal in it stand in wrappers. -/
def Node.wrappedLevel : Node :=
  .settingLevel (.compareChain .less [⟨.genValue, [.boolChain [] [.intLiteral 1]]⟩])

private theorem settingLevel_wrapped :
    Relation.ReflTransGen (Node.Rewrites Label.Wraps) (.settingLevel (.int 1)) .wrappedLevel := by
  have setting {value other : Node} (rewritten : Node.Rewrites Label.Wraps value other) :
      Node.Rewrites Label.Wraps (.settingLevel value) (.settingLevel other) :=
    @Node.Rewrites.inside _ .program [.declaration "num" "level"] [] _ _
      (@Node.Rewrites.inside _ .stmt [] [] _ _
        (@Node.Rewrites.inside _ .assignStmt [.ident "level"] [] _ _ rewritten))
  have literal : Node.Rewrites Label.Wraps (.int 1) ⟨.genValue, [.boolChain [] [.intLiteral 1]]⟩ :=
    .here (@Label.Wraps.wrap _ (.boolExpr []) [] [] _ (.inr rfl) rfl)
  have assigned (value : Node) : Node.Rewrites Label.Wraps (.assign "level" value)
      (.assign "level" (.compareChain .less [value])) :=
    .here (@Label.Wraps.wrap _ (.compExpr (some .less)) [.ident "level"] [] value (.inr rfl) rfl)
  have compared (value : Node) : Node.Rewrites Label.Wraps (.settingLevel value)
      (.settingLevel (.compareChain .less [value])) :=
    @Node.Rewrites.inside _ .program [.declaration "num" "level"] [] _ _
      (@Node.Rewrites.inside _ .stmt [] [] _ _ (assigned value))
  exact .head (setting literal) (.single (compared _))

theorem wrappedLevel_is_transparent :
    (Session.check {} (.settingLevel (.int 1))).outcome = .ok { vars := 1 } ∧
    (Session.check {} .wrappedLevel).EndsLike (Session.check {} (.settingLevel (.int 1))) :=
  ⟨by decide +kernel, wrappers_are_transparent {} settingLevel_wrapped⟩

end TreeCheck
