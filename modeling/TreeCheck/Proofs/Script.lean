import Mathlib.Algebra.BigOperators.Group.List.Basic
import TreeCheck.Proofs.Gathering

/-!
# The script of a tree

What a walk of a tree would do can be read off the shape of the tree: which nodes it visits, which
names it declares and what it counts. The script of a tree lists all this without looking up a name
or comparing two types, and so also without knowing whether the tree is well typed.
-/

set_option autoImplicit false

namespace TreeCheck

/-! ## Walked nodes -/

/-- Whether the walk goes from a node with this label into the child at `index`, whose label is
`below`. A program is only ever a root, so below the root it leads nowhere. -/
def Label.leadsTo (label : Label) (index : Nat) (below : Label) : Bool :=
  match label with
  | .block | .stmt | .expr | .ifStmt | .whileStmt | .compExpr _ | .addExpr | .mulExpr | .boolExpr _
  | .unaExpr _ => true
  | .notExpr tokens => tokens.isEmpty || index == 0
  | .assignStmt => index == 1
  | .genValue => below.kind != .identifier
  | .switchStmt => index != 0 && below.kind != .caseStmt
  | .program | .declaration _ | .enumStmt | .caseStmt | .boolValue _ | .identifier _
  | .intValue _ => false

namespace Node

mutual

/-- The nodes walked from a node on, itself first and parents before children. -/
def walk : Node → List Node
  | ⟨label, children⟩ => ⟨label, children⟩ :: walkBelow label 0 children

/-- The nodes walked below a node with this label; the first child given stands at `index`. -/
def walkBelow (label : Label) (index : Nat) : List Node → List Node
  | [] => []
  | child :: rest =>
    (if label.leadsTo index child.label then child.walk else []) ++ walkBelow label (index + 1) rest

end

/-- The nodes walked in a program. All its items are; the program itself does not count. -/
def walked (program : Node) : List Node :=
  program.children.flatMap walk

/-! ## What a node asks for -/

/-- The values that a node adds to an enumeration. -/
def valueCount : Node → Nat
  | ⟨.enumStmt, children⟩ => children.length - 1
  | _ => 0

/-- The operators that a node applies: one for each operand of a comparison but the first, and one
for any other chain, whatever its length. -/
def operatorCount : Node → Nat
  | ⟨.compExpr _, children⟩ => if 2 ≤ children.length then children.length - 1 else 0
  | ⟨.addExpr, children⟩ | ⟨.mulExpr, children⟩ => if 2 ≤ children.length then 1 else 0
  | ⟨.boolExpr tokens, _⟩ | ⟨.notExpr tokens, _⟩ | ⟨.unaExpr tokens, _⟩ =>
    if tokens = [] then 0 else 1
  | _ => 0

/-- What a node adds to the counters. Variables are counted where they are declared. -/
def tally (node : Node) : Metrics where
  vars := if node.kind = .declaration then 1 else 0
  whiles := if node.kind = .whileStmt then 1 else 0
  ifs := if node.kind = .ifStmt then 1 else 0
  enumValues := node.valueCount
  operators := node.operatorCount

end Node

/-- What kind of declaration introduces a name. -/
inductive Origin
  | declaration
  /-- The name of an enumeration. -/
  | enumeration
  /-- One of the values of an enumeration. -/
  | enumValue
deriving DecidableEq, Repr

/-- The kind of declaration that binds names to this type. -/
def Ty.origin : Ty → Origin
  | .enumType => .enumeration
  | .enumValue => .enumValue
  | _ => .declaration

theorem Ty.origin_eq_enumeration_iff {type : Ty} :
    type.origin = .enumeration ↔ type = .enumType := by
  cases type <;> simp [origin]

theorem Ty.origin_eq_enumValue_iff {type : Ty} :
    type.origin = .enumValue ↔ type = .enumValue := by
  cases type <;> simp [origin]

/-- The names that a node declares, in order. -/
def Node.declares : Node → List (String × Origin)
  | ⟨.declaration _, [name]⟩ => name.identifier?.toList.map (·, .declaration)
  | ⟨.declaration _, _ :: name :: _⟩ => name.identifier?.toList.map (·, .declaration)
  | ⟨.enumStmt, typeName :: values⟩ =>
    typeName.identifier?.toList.map (·, .enumeration) ++
      (values.filterMap identifier?).map (·, .enumValue)
  | _ => []

/-- The names that a program declares, in the order of the walk. -/
def Node.declared (program : Node) : List (String × Origin) :=
  program.walked.flatMap declares

/-! ## Scripts -/

/-- What is to be declared, counted and visited. -/
structure Script where
  declared : List (String × Origin) := []
  counts : Metrics := 0
  visited : List (Kind × Nat) := []

namespace Script

instance : Zero Script := ⟨{}⟩

instance : Add Script := ⟨fun earlier later =>
  { declared := earlier.declared ++ later.declared
    counts := earlier.counts + later.counts
    visited := earlier.visited ++ later.visited }⟩

@[ext] theorem ext {left right : Script} (declared : left.declared = right.declared)
    (counts : left.counts = right.counts) (visited : left.visited = right.visited) :
    left = right := by
  cases left
  cases right
  simp only at declared counts visited
  subst declared counts visited
  rfl

section

variable (earlier later : Script)

@[simp] theorem zero_declared : (0 : Script).declared = [] := rfl
@[simp] theorem zero_counts : (0 : Script).counts = 0 := rfl
@[simp] theorem zero_visited : (0 : Script).visited = [] := rfl
@[simp] theorem add_declared :
    (earlier + later).declared = earlier.declared ++ later.declared := rfl
@[simp] theorem add_counts : (earlier + later).counts = earlier.counts + later.counts := rfl
@[simp] theorem add_visited : (earlier + later).visited = earlier.visited ++ later.visited := rfl

end

instance : AddMonoid Script where
  add_assoc _ _ _ := by ext1 <;> simp [add_assoc]
  zero_add _ := by ext1 <;> simp
  add_zero _ := by ext1 <;> simp
  nsmul := nsmulRec

/-- The script of a single declaration. -/
def declaring (name : String) (origin : Origin) : Script where
  declared := [(name, origin)]
  counts := { vars := if origin = .declaration then 1 else 0 }

/-- When something is counted makes no difference. -/
theorem counts_add_comm (counts : Metrics) (script : Script) :
    ({ counts } : Script) + script = script + { counts } := by
  ext1 <;> simp [add_comm]

/-- The script of walked nodes, one after the other. -/
def ofNodes (nodes : List Node) : Script :=
  (nodes.map fun node =>
    { declared := node.declares
      counts := node.tally
      visited := [(node.kind, node.children.length)] : Script }).sum

@[simp] theorem ofNodes_nil : ofNodes [] = 0 := rfl

theorem ofNodes_cons (node : Node) (nodes : List Node) :
    ofNodes (node :: nodes) =
      { declared := node.declares
        counts := node.tally
        visited := [(node.kind, node.children.length)] } + ofNodes nodes := by
  rw [ofNodes, List.map_cons, List.sum_cons, ofNodes]

theorem ofNodes_append (earlier later : List Node) :
    ofNodes (earlier ++ later) = ofNodes earlier + ofNodes later := by
  rw [ofNodes, List.map_append, List.sum_append, ofNodes, ofNodes]

theorem ofNodes_declared (nodes : List Node) :
    (ofNodes nodes).declared = nodes.flatMap Node.declares := by
  induction nodes with
  | nil => rfl
  | cons node nodes ih => rw [ofNodes_cons, add_declared, ih, List.flatMap_cons]

theorem ofNodes_counts (nodes : List Node) :
    (ofNodes nodes).counts = (nodes.map Node.tally).sum := by
  induction nodes with
  | nil => rfl
  | cons node nodes ih => rw [ofNodes_cons, add_counts, ih, List.map_cons, List.sum_cons]

theorem ofNodes_visited (nodes : List Node) :
    (ofNodes nodes).visited = nodes.map fun node => (node.kind, node.children.length) := by
  induction nodes with
  | nil => rfl
  | cons node nodes ih => rw [ofNodes_cons, add_visited, ih, List.map_cons, List.singleton_append]

end Script

/-! ## Walked nodes, position by position -/

theorem Label.leadsTo_genValue (index : Nat) (below : Label) :
    genValue.leadsTo index below = Position.value.walks below := by
  cases below <;> rfl

theorem Label.leadsTo_switchStmt (subject : Ty) {index : Nat} (later : 1 ≤ index) (below : Label) :
    switchStmt.leadsTo index below = (Position.arm subject).walks below := by
  have notFirst : (index != 0) = true := bne_iff_ne.mpr (by omega)
  cases below <;> simp [leadsTo, notFirst, kind, Position.walks]

/-- The nodes walked when children are read in a position. -/
def Position.walked (position : Position) (children : List Node) : List Node :=
  children.flatMap fun child => if position.walks child.label then child.walk else []

namespace Node

@[simp] theorem walkBelow_nil (label : Label) (index : Nat) : walkBelow label index [] = [] := by
  rw [walkBelow]

theorem walkBelow_cons (label : Label) (index : Nat) (child : Node) (rest : List Node) :
    walkBelow label index (child :: rest) =
      (if label.leadsTo index child.label then child.walk else []) ++
        walkBelow label (index + 1) rest := by
  rw [walkBelow]

/-- From `index` on, the node with this label has its children read in this position. -/
theorem walkBelow_eq_walked {label : Label} {position : Position} {index : Nat}
    (leads : ∀ place, index ≤ place → ∀ below, label.leadsTo place below = position.walks below)
    (children : List Node) : walkBelow label index children = position.walked children := by
  induction children generalizing index with
  | nil => rw [walkBelow_nil]; rfl
  | cons child rest ih =>
      rw [walkBelow_cons, leads index (Nat.le_refl _),
        ih fun place above => leads place (Nat.le_of_succ_le above)]
      rfl

theorem walkBelow_eq_plain {label : Label}
    (leads : ∀ place below, label.leadsTo place below = true) (children : List Node) :
    walkBelow label 0 children = Position.plain.walked children :=
  walkBelow_eq_walked (fun place _ below => leads place below) children

theorem walkBelow_genValue (children : List Node) :
    walkBelow .genValue 0 children = Position.value.walked children :=
  walkBelow_eq_walked (fun place _ below => Label.leadsTo_genValue place below) children

private theorem walkBelow_switchStmt (subject : Ty) (arms : List Node) :
    walkBelow .switchStmt 1 arms = (Position.arm subject).walked arms :=
  walkBelow_eq_walked (fun _ later below => Label.leadsTo_switchStmt subject later below) arms

/-- From `index` on, the node with this label has no child walked. -/
theorem walkBelow_eq_nil {label : Label} {index : Nat}
    (leads : ∀ place, index ≤ place → ∀ below, label.leadsTo place below = false)
    (children : List Node) : walkBelow label index children = [] := by
  induction children generalizing index with
  | nil => rw [walkBelow_nil]
  | cons child rest ih =>
      rw [walkBelow_cons, leads index (Nat.le_refl _),
        ih fun place above => leads place (Nat.le_of_succ_le above)]
      rfl

theorem walkBelow_of_gathering {label : Label} {children : List Node} {gathering : Gathering}
    (planned : label.gathering? children.length = some gathering) :
    walkBelow label 0 children = gathering.position.walked (gathering.operands children) := by
  cases label with
  | genValue =>
      cases planned
      exact walkBelow_genValue children
  | notExpr tokens =>
      cases tokens with
      | nil =>
          cases planned
          exact walkBelow_eq_plain (fun _ _ => rfl) children
      | cons token tokens =>
          cases planned
          cases children with
          | nil => exact walkBelow_nil _ 0
          | cons operand rest =>
              have only : walkBelow (.notExpr (token :: tokens)) 1 rest = [] :=
                walkBelow_eq_nil (fun place above _ => beq_false_of_ne (by omega)) rest
              rw [walkBelow_cons, only]
              rfl
  | addExpr | mulExpr =>
      cases planned
      split <;> exact walkBelow_eq_plain (fun _ _ => rfl) children
  | boolExpr tokens | unaExpr tokens =>
      cases tokens <;> cases planned <;> exact walkBelow_eq_plain (fun _ _ => rfl) children
  | _ => cases planned <;> exact walkBelow_eq_plain (fun _ _ => rfl) children

theorem walkBelow_assignStmt (children : List Node) :
    walkBelow .assignStmt 0 children = (children[1]?.map walk).getD [] := by
  match children with
  | [] => exact walkBelow_nil _ 0
  | [target] =>
      rw [walkBelow_cons, walkBelow_nil]
      rfl
  | target :: value :: rest =>
      have only : walkBelow .assignStmt 2 rest = [] :=
        walkBelow_eq_nil (fun place above _ => beq_false_of_ne (by omega)) rest
      rw [walkBelow_cons, walkBelow_cons, only]
      exact List.append_nil _

theorem walkBelow_switchStmt_tail (subject : Ty) (children : List Node) :
    walkBelow .switchStmt 0 children = (Position.arm subject).walked children.tail := by
  cases children with
  | nil => exact walkBelow_nil _ 0
  | cons child arms => rw [walkBelow_cons, walkBelow_switchStmt subject, List.tail_cons]; rfl

theorem declares_of_gathering {label : Label} {children : List Node} {gathering : Gathering}
    (planned : label.gathering? children.length = some gathering) :
    (Node.mk label children).declares = [] := by
  cases label with
  | declaration _ | enumStmt => cases planned
  | _ => rfl

/-- What a rule counts in addition to its declarations: part of it before the children are read, and
the rest afterwards, whatever their types. -/
theorem tally_of_gathering {label : Label} {children : List Node} {gathering : Gathering}
    (planned : label.gathering? children.length = some gathering) :
    ∃ rest, (Node.mk label children).tally = gathering.before + rest ∧
      ∀ types : List Ty, types.length = (gathering.operands children).length →
        gathering.after types = rest := by
  cases label with
  | compExpr operator =>
      cases planned
      have counted : (if 2 ≤ children.length then children.length - 1 else 0) =
          children.length - 1 := by
        split <;> omega
      refine ⟨{ operators := children.length - 1 }, ?_, fun types length => ?_⟩
      · rw [tally, operatorCount, counted]
        exact (zero_add _).symm
      · exact congrArg (fun count => ({ operators := count - 1 } : Metrics)) length
  | addExpr | mulExpr =>
      cases planned
      by_cases one : children.length ≤ 1
      · have single : ¬ 2 ≤ children.length := by omega
        rw [if_pos one, tally, operatorCount, if_neg single]
        exact ⟨0, rfl, fun _ _ => rfl⟩
      · have several : 2 ≤ children.length := by omega
        rw [if_neg one, tally, operatorCount, if_pos several]
        exact ⟨0, rfl, fun _ _ => rfl⟩
  | boolExpr tokens =>
      cases tokens with
      | nil =>
          cases planned
          exact ⟨0, rfl, fun _ _ => rfl⟩
      | cons token tokens =>
          cases planned
          exact ⟨{ operators := 1 }, rfl, fun _ _ => rfl⟩
  | notExpr tokens | unaExpr tokens =>
      cases tokens <;> cases planned <;> exact ⟨0, rfl, fun _ _ => rfl⟩
  | _ => cases planned <;> exact ⟨0, rfl, fun _ _ => rfl⟩

end Node

end TreeCheck
