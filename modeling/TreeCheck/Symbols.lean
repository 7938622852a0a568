import TreeCheck.Fault
import TreeCheck.Ty

/-!
# The symbol table

Variables, enumerations and enumeration values share one namespace for a whole program, and a name
keeps the type of its first declaration. The table lists its bindings in the order of declaration
and holds no name twice.
-/

set_option autoImplicit false

namespace TreeCheck

/-- The declared names with their types, oldest first. -/
structure SymbolTable where
  entries : List (String × Ty)
  distinct : (entries.map Prod.fst).Nodup

namespace SymbolTable

def empty : SymbolTable :=
  ⟨[], List.nodup_nil⟩

instance : Inhabited SymbolTable := ⟨empty⟩

@[ext] theorem ext {left right : SymbolTable} (same : left.entries = right.entries) :
    left = right := by
  cases left
  cases right
  cases same
  rfl

instance : DecidableEq SymbolTable := fun left right =>
  if same : left.entries = right.entries then isTrue (ext same)
  else isFalse fun equal => same (congrArg entries equal)

def names (table : SymbolTable) : List String :=
  table.entries.map Prod.fst

def lookup (table : SymbolTable) (name : String) : Option Ty :=
  table.entries.lookup name

def bind (table : SymbolTable) (name : String) (type : Ty) (fresh : name ∉ table.names) :
    SymbolTable :=
  ⟨table.entries ++ [(name, type)], by
    rw [List.map_append, List.nodup_append]
    refine ⟨table.distinct, by simp, ?_⟩
    intro bound declared other isOther same
    have : other = name := by simpa using isOther
    exact fresh (by rw [names, ← this, ← same]; exact declared)⟩

/-- Declares a name, which must not be bound yet, whatever it is bound to. -/
def declare (table : SymbolTable) (name : String) (type : Ty) : Except Violation SymbolTable :=
  if fresh : name ∈ table.names then .error (.multipleDeclaration name)
  else .ok (table.bind name type fresh)

/-- Whether a variable may be declared with this type name: a keyword or a declared enumeration. -/
def isTypeName (table : SymbolTable) (name : String) : Bool :=
  (Ty.ofKeyword? name).isSome || table.lookup name == some .enumType

/-- The type of a variable declared with this type name, `Ty.unknown` when there is no such type. -/
def declaredType (table : SymbolTable) (typeName : String) : Ty :=
  match Ty.ofKeyword? typeName with
  | some type => type
  | none => if table.lookup typeName = some .enumType then .enumVar else .unknown

def size (table : SymbolTable) : Nat :=
  table.entries.length

def variableCount (table : SymbolTable) : Nat :=
  table.entries.countP fun entry => entry.2.isVariable

def sorted (table : SymbolTable) : List (String × Ty) :=
  table.entries.mergeSort fun left right => decide (left.1 ≤ right.1)

@[simp] theorem entries_empty : empty.entries = [] := rfl

@[simp] theorem entries_bind (table : SymbolTable) (name : String) (type : Ty)
    (fresh : name ∉ table.names) :
    (table.bind name type fresh).entries = table.entries ++ [(name, type)] := rfl

theorem declare_of_mem {table : SymbolTable} {name : String} (type : Ty)
    (bound : name ∈ table.names) :
    table.declare name type = .error (.multipleDeclaration name) := by
  simp [declare, bound]

theorem declare_of_not_mem {table : SymbolTable} {name : String} (type : Ty)
    (fresh : name ∉ table.names) :
    table.declare name type = .ok (table.bind name type fresh) := by
  simp [declare, fresh]

theorem lookup_eq_none_iff {table : SymbolTable} {name : String} :
    table.lookup name = none ↔ name ∉ table.names := by
  rw [lookup, List.lookup_eq_none_iff, names]
  constructor
  · intro absent declared
    obtain ⟨entry, member, same⟩ := List.mem_map.mp declared
    exact absurd same.symm (by simpa using absent entry member)
  · intro absent entry member
    have differs : name ≠ entry.1 := fun same =>
      absent (same ▸ List.mem_map_of_mem member)
    simpa using differs

end SymbolTable

end TreeCheck
