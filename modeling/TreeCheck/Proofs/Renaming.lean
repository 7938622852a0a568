import Mathlib.Data.List.Nodup
import Mathlib.Logic.Equiv.Basic
import TreeCheck.Proofs.Gathering

/-!
# Renaming

A renaming maps names to names, different ones to different ones, and leaves the two keywords alone.
It acts on trees, on what is said about them and on tables. No look-up and no comparison with a
keyword tells a renamed table from the table it was made from.
-/

set_option autoImplicit false

namespace TreeCheck

/-- A consistent change of names. -/
structure Renaming where
  apply : String → String
  injective : Function.Injective apply
  num : apply "num" = "num"
  bool : apply "bool" = "bool"

instance : CoeFun Renaming fun _ => String → String := ⟨Renaming.apply⟩

theorem Renaming.eq_num_iff (mapping : Renaming) {name : String} :
    mapping name = "num" ↔ name = "num" := by
  conv_lhs => rw [← mapping.num]
  exact mapping.injective.eq_iff

theorem Renaming.eq_bool_iff (mapping : Renaming) {name : String} :
    mapping name = "bool" ↔ name = "bool" := by
  conv_lhs => rw [← mapping.bool]
  exact mapping.injective.eq_iff

/-- The renaming that exchanges two names. -/
def Renaming.exchange (left right : String)
    (apart : ∀ keyword ∈ ["num", "bool"], keyword ≠ left ∧ keyword ≠ right) : Renaming where
  apply := Equiv.swap left right
  injective := (Equiv.swap left right).injective
  num := Equiv.swap_apply_of_ne_of_ne (apart "num" (by simp)).1 (apart "num" (by simp)).2
  bool := Equiv.swap_apply_of_ne_of_ne (apart "bool" (by simp)).1 (apart "bool" (by simp)).2

theorem Ty.ofKeyword?_rename (mapping : Renaming) (name : String) :
    ofKeyword? (mapping name) = ofKeyword? name := by
  simp only [ofKeyword?, mapping.eq_num_iff, mapping.eq_bool_iff]

/-! ## Trees -/

def Label.rename (mapping : Renaming) : Label → Label
  | .declaration typeName => .declaration (typeName.map mapping)
  | .identifier name => .identifier (mapping name)
  | other => other

@[simp] theorem Label.kind_rename (mapping : Renaming) (label : Label) :
    (label.rename mapping).kind = label.kind := by
  cases label <;> rfl

theorem Label.rename_of_gathering {label : Label} {arity : Nat} {gathering : Gathering}
    (mapping : Renaming) (planned : label.gathering? arity = some gathering) :
    label.rename mapping = label := by
  cases label with
  | declaration typeName | identifier name => cases planned
  | _ => rfl

namespace Node

mutual

/-- Renames every identifier and every type name of a tree. -/
def rename (mapping : Renaming) : Node → Node
  | ⟨label, children⟩ => ⟨label.rename mapping, renameAll mapping children⟩

def renameAll (mapping : Renaming) : List Node → List Node
  | [] => []
  | node :: rest => node.rename mapping :: renameAll mapping rest

end

variable (mapping : Renaming)

private theorem renameAll_eq (nodes : List Node) :
    renameAll mapping nodes = nodes.map (rename mapping) := by
  induction nodes with
  | nil => rw [renameAll, List.map_nil]
  | cons node rest ih => rw [renameAll, ih, List.map_cons]

theorem rename_mk (label : Label) (children : List Node) :
    (Node.mk label children).rename mapping =
      ⟨label.rename mapping, children.map (rename mapping)⟩ := by
  rw [rename, renameAll_eq]

@[simp] theorem label_rename (node : Node) :
    (node.rename mapping).label = node.label.rename mapping := by
  rcases node with ⟨label, children⟩
  rw [rename_mk, label_mk, label_mk]

@[simp] theorem kind_rename (node : Node) : (node.rename mapping).kind = node.kind := by
  rw [kind, label_rename, Label.kind_rename, kind]

theorem identifier?_rename (node : Node) :
    (node.rename mapping).identifier? = node.identifier?.map mapping := by
  rw [identifier?, label_rename, identifier?]
  cases node.label <;> rfl

private theorem sizeAll_map {children : List Node}
    (same : ∀ child ∈ children, (child.rename mapping).size = child.size) :
    sizeAll (children.map (rename mapping)) = sizeAll children := by
  induction children with
  | nil => rfl
  | cons child rest ih =>
      obtain ⟨first, others⟩ := List.forall_mem_cons.mp same
      rw [List.map_cons, sizeAll, sizeAll, first, ih others]

theorem size_rename (node : Node) : (node.rename mapping).size = node.size := by
  induction node using childrenInduction with
  | step label children ih => rw [rename_mk, size, size, sizeAll_map mapping ih]

end Node

/-! ## Faults and events -/

def CaseLabel.rename (mapping : Renaming) : CaseLabel → CaseLabel
  | .integer value => .integer value
  | .identifier name => .identifier (mapping name)

def Violation.rename (mapping : Renaming) : Violation → Violation
  | .undefinedIdentifier name => .undefinedIdentifier (mapping name)
  | .multipleDeclaration name => .multipleDeclaration (mapping name)
  | .unknownDeclaredType name typeName => .unknownDeclaredType (mapping name) (mapping typeName)
  | .invalidConditionType => .invalidConditionType
  | .invalidExpressionType => .invalidExpressionType
  | .invalidAssignmentType name => .invalidAssignmentType (mapping name)
  | .invalidSwitchType name => .invalidSwitchType (mapping name)
  | .invalidCaseType label => .invalidCaseType (label.rename mapping)

def Fault.rename (mapping : Renaming) : Fault → Fault
  | .violation broken => .violation (broken.rename mapping)
  | .malformed shape => .malformed shape

def Event.rename (mapping : Renaming) : Event → Event
  | .declareVariable name type => .declareVariable (mapping name) type
  | .declareEnum typeName values => .declareEnum (mapping typeName) values
  | other => other

/-! ## Tables -/

namespace SymbolTable

def rename (mapping : Renaming) (table : SymbolTable) : SymbolTable where
  entries := table.entries.map fun entry => (mapping entry.1, entry.2)
  distinct := by
    have names : (table.entries.map fun entry => (mapping entry.1, entry.2)).map Prod.fst =
        (table.entries.map Prod.fst).map mapping := by
      simp
    rw [names]
    exact table.distinct.map mapping.injective

variable (mapping : Renaming) (table : SymbolTable)

@[simp] theorem entries_rename :
    (table.rename mapping).entries =
      table.entries.map fun entry => (mapping entry.1, entry.2) := rfl

private theorem mem_names_rename {name : String} :
    mapping name ∈ (table.rename mapping).names ↔ name ∈ table.names := by
  have names : (table.rename mapping).names = table.names.map mapping := by
    simp [SymbolTable.names]
  rw [names, List.mem_map_of_injective mapping.injective]

theorem lookup_rename (name : String) :
    (table.rename mapping).lookup (mapping name) = table.lookup name := by
  refine Option.ext fun type => ?_
  rw [lookup_eq_some_iff, lookup_eq_some_iff, entries_rename, List.mem_map]
  constructor
  · rintro ⟨⟨other, found⟩, member, same⟩
    obtain ⟨sameName, rfl⟩ := Prod.mk.inj same
    obtain rfl : other = name := mapping.injective sameName
    exact member
  · intro member
    exact ⟨(name, type), member, rfl⟩

theorem isTypeName_rename (name : String) :
    (table.rename mapping).isTypeName (mapping name) = table.isTypeName name := by
  rw [isTypeName, isTypeName, Ty.ofKeyword?_rename, lookup_rename]

theorem declaredType_rename (name : String) :
    (table.rename mapping).declaredType (mapping name) = table.declaredType name := by
  rw [declaredType, declaredType, Ty.ofKeyword?_rename, lookup_rename]

theorem declare_rename (name : String) (type : Ty) :
    (table.rename mapping).declare (mapping name) type =
      ((table.declare name type).map (rename mapping)).mapError (Violation.rename mapping) := by
  by_cases bound : name ∈ table.names
  · rw [declare_of_mem type bound,
      declare_of_mem type ((mem_names_rename mapping table).mpr bound)]
    rfl
  · rw [declare_of_not_mem type bound,
      declare_of_not_mem type fun renamed => bound ((mem_names_rename mapping table).mp renamed)]
    refine congrArg Except.ok (SymbolTable.ext ?_)
    simp

theorem variableCount_rename : (table.rename mapping).variableCount = table.variableCount := by
  rw [variableCount, variableCount, entries_rename, List.countP_map]
  rfl

theorem size_rename : (table.rename mapping).size = table.size := by
  rw [size, size, entries_rename, List.length_map]

end SymbolTable

/-! ## Runs -/

def Session.rename (mapping : Renaming) (session : Session) : Session :=
  { session with symbols := session.symbols.rename mapping }

def Walk.rename (mapping : Renaming) (walk : Walk) : Walk :=
  ⟨walk.session.rename mapping, walk.log.map (Event.rename mapping)⟩

def Run.rename (mapping : Renaming) (run : Run) : Run :=
  ⟨run.outcome.mapError (Fault.rename mapping), run.session.rename mapping,
    run.events.map (Event.rename mapping)⟩

end TreeCheck
