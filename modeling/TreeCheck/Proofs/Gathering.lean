import TreeCheck.Proofs.Growth

/-!
# Rules that gather types

Most rules follow one plan: they read their children in one position and then judge the types they
have gathered. A `Gathering` is such a plan written down as data. What is left besides are the
declarations, assignments and switches, which read some children by themselves, and the nodes that
have no children to read.
-/

set_option autoImplicit false

namespace TreeCheck

/-- How a rule deals with the types of its children. -/
structure Gathering where
  /-- Whether there must be a child. -/
  needsChild : Bool := false
  /-- Whether only the first child is read. -/
  onlyFirst : Bool := false
  position : Position := .plain
  admitted : Admission := .any
  /-- What is counted before the children are read. -/
  before : Metrics := 0
  /-- What is counted once they have been read. -/
  after : List Ty → Metrics := fun _ => 0
  /-- The type of the node, unless the types of the children do not fit. -/
  conclude : List Ty → Option Ty := fun types => some (Ty.lastKnown types)
  /-- The rule that is broken when they do not. -/
  objection : Violation := .invalidExpressionType
  /-- Cases are read by switches only. -/
  noCase : ∀ subject, position ≠ .arm subject := by exact fun _ => Position.noConfusion
  /-- Variables are counted by the table and not by the rules. -/
  before_vars : before.vars = 0 := by rfl
  after_vars : ∀ types, (after types).vars = 0 := by exact fun _ => rfl
  /-- Such a rule speaks of no name. -/
  nameless : objection = .invalidExpressionType ∨ objection = .invalidConditionType := by simp

namespace Gathering

/-- Conditionals: the first child decides. -/
def conditional : Gathering where
  needsChild := true
  before := { ifs := 1 }
  conclude types := if types.head? = some .bool then some .unknown else none
  objection := .invalidConditionType

/-- Loops are judged like conditionals and counted apart. -/
def loop : Gathering :=
  { conditional with before := { whiles := 1 } }

/-- Negations with an operator: only the first child is read, whatever stands after it. -/
def negation : Gathering where
  needsChild := true
  onlyFirst := true
  before := { operators := 1 }
  conclude types := if types = [.bool] then some .bool else none

/-- Comparisons: each operand but the first is one more operator. -/
def comparison (operator : Option Comparison) : Gathering where
  after types := { operators := types.length - 1 }
  conclude
    | [] => some .unknown
    | [type] => some type
    | first :: rest => if Comparison.admits operator first rest then some .bool else none

/-- Sums and products of several operands. -/
def arithmetic : Gathering where
  admitted := .numbers
  before := { operators := 1 }
  conclude _ := some .number

/-- Boolean chains with operators. -/
def connective : Gathering where
  admitted := .alike
  after _ := { operators := 1 }
  conclude _ := some .bool

/-- The children that are read. -/
def operands (gathering : Gathering) (children : List Node) : List Node :=
  if gathering.onlyFirst then children.take 1 else children

theorem operands_subset (gathering : Gathering) (children : List Node) :
    gathering.operands children ⊆ children := by
  rw [operands]
  split
  · exact List.take_subset 1 children
  · exact List.Subset.refl children

theorem operands_map (gathering : Gathering) (change : Node → Node)
    (children : List Node) :
    gathering.operands (children.map change) = (gathering.operands children).map change := by
  rw [operands, operands]
  split
  · exact List.map_take.symm
  · rfl

end Gathering

/-- The plan of the rule of a label over so many children, where it has one. -/
def Label.gathering? (label : Label) (arity : Nat) : Option Gathering :=
  match label with
  | .block | .stmt | .expr | .notExpr [] | .unaExpr [] => some {}
  | .unaExpr (_ :: _) => some { before := { operators := 1 } }
  | .genValue => some { position := .value }
  | .ifStmt => some .conditional
  | .whileStmt => some .loop
  | .compExpr operator => some (.comparison operator)
  | .addExpr | .mulExpr => some (if arity ≤ 1 then {} else .arithmetic)
  | .boolExpr [] => some { admitted := .alike, conclude := fun types => some (Ty.firstKnown types) }
  | .boolExpr (_ :: _) => some .connective
  | .notExpr (_ :: _) => some .negation
  | .program | .declaration _ | .assignStmt | .enumStmt | .switchStmt | .caseStmt | .boolValue _
  | .identifier _ | .intValue _ => none

namespace Check

/-- Judges the types that have been gathered. -/
def judge (gathering : Gathering) (types : List Ty) : Check Ty := do
  count (· + gathering.after types)
  match gathering.conclude types with
  | some type => return type
  | none => reject gathering.objection

/-- Carries out a plan for a node of this kind. -/
def gather (gathering : Gathering) (kind : Kind) (children : List Node) : Check Ty := do
  emit (.visit kind children.length)
  count (· + gathering.before)
  if gathering.needsChild && children.isEmpty then malformed (.missingChild kind 0)
  else
    judge gathering
      (← visitEach gathering.position gathering.admitted [] (gathering.operands children))

theorem judge_of_some {gathering : Gathering} {types : List Ty} {type : Ty}
    (fits : gathering.conclude types = some type) :
    judge gathering types = count (· + gathering.after types) >>= fun _ => pure type := by
  rw [judge, fits]

theorem judge_of_none {gathering : Gathering} {types : List Ty}
    (misfits : gathering.conclude types = none) :
    judge gathering types =
      count (· + gathering.after types) >>= fun _ => reject gathering.objection := by
  rw [judge, misfits]

theorem judge_conditional (types : List Ty) :
    judge .conditional types =
      if types.head? = some .bool then return .unknown else reject .invalidConditionType := by
  split
  · rename_i bool
    exact judge_of_some (if_pos bool)
  · rename_i other
    exact judge_of_none (if_neg other)

private theorem judge_negation (type : Ty) :
    judge .negation [type] =
      if type = .bool then return .bool else reject .invalidExpressionType := by
  split
  · rename_i bool
    exact judge_of_some (if_pos (congrArg (fun type => [type]) bool))
  · rename_i other
    exact judge_of_none (if_neg fun same => other (List.singleton_inj.mp same))

theorem judge_comparison (operator : Option Comparison) (types : List Ty) :
    judge (.comparison operator) types =
      (match types with
      | [] => return .unknown
      | [type] => return type
      | first :: rest => do
        count (·.addOperators rest.length)
        if Comparison.admits operator first rest then return .bool
        else reject .invalidExpressionType) := by
  match types with
  | [] => rfl
  | [type] => rfl
  | first :: second :: rest =>
      dsimp only
      split
      · rename_i admitted
        exact judge_of_some (if_pos admitted)
      · rename_i refused
        exact judge_of_none (if_neg refused)

/-- A rule that has a plan carries it out. -/
theorem visit_of_gathering {label : Label} {children : List Node} {gathering : Gathering}
    (planned : label.gathering? children.length = some gathering) :
    visit ⟨label, children⟩ = gather gathering label.kind children := by
  cases label with
  | block | stmt | expr | genValue =>
      cases planned
      rw [visit]
      rfl
  | ifStmt | whileStmt =>
      cases planned
      rw [visit]
      simp only [← judge_conditional]
      rfl
  | compExpr operator =>
      cases planned
      rw [visit, gather]
      simp only [judge_comparison]
      rfl
  | addExpr | mulExpr =>
      cases planned
      rw [visit]
      split <;> rfl
  | boolExpr tokens =>
      cases tokens <;> cases planned <;> rw [visit] <;> rfl
  | notExpr tokens =>
      cases tokens with
      | nil =>
          cases planned
          rw [visit.eq_def]
          rfl
      | cons token tokens =>
          cases planned
          cases children with
          | nil =>
              rw [visit]
              rfl
          | cons operand rest =>
              have judged : visitEach .plain .any [] [operand] >>= judge .negation =
                  visit operand >>= fun type =>
                    if type = .bool then return .bool else reject .invalidExpressionType := by
                rw [visitEach_cons, bind_assoc]
                exact congrArg _ (funext judge_negation)
              rw [visit, ← judged]
              rfl
  | unaExpr tokens =>
      cases tokens <;> cases planned <;> rw [visit] <;> rfl
  | _ => cases planned

/-! ## Rules that read a child by themselves -/

/-- The rest of an assignment, once its target has been looked up. -/
def assignValue (children : List Node) (name : String) (target : Option Ty) : Check Ty :=
  match children[1]? with
  | none => malformed (.missingChild .assignStmt 1)
  | some value => do
    let type ← visit value
    if target.any (·.acceptsAssignment type) then return .unknown
    else reject (.invalidAssignmentType name)

/-- The rest of a switch, once its subject has been looked up. -/
def switchArms (children : List Node) (name : String) (subject : Option Ty) : Check Ty :=
  match subject.filter Ty.isSwitchable with
  | none => reject (.invalidSwitchType name)
  | some type => do
    let _ ← visitEach (.arm type) .any [] children.tail
    return .unknown

theorem visit_assignStmt (children : List Node) :
    visit ⟨.assignStmt, children⟩ = (do
      emit (.visit .assignStmt children.length)
      let name ← identifierAt .assignStmt children 0
      assignValue children name (← lookup name)) := by
  match children with
  | [] | [target] | target :: value :: rest =>
      rw [visit]
      rfl

theorem visit_switchStmt (children : List Node) :
    visit ⟨.switchStmt, children⟩ = (do
      emit (.visit .switchStmt children.length)
      let name ← identifierAt .switchStmt children 0
      switchArms children name (← lookup name)) := by
  cases children with
  | nil | cons subject arms =>
      rw [visit]
      rfl

end Check

end TreeCheck
