import TreeCheck.Proofs.Blame
import TreeCheck.Proofs.DeclarationForms

/-!
# The targets of assignments

An assignment asks whether the type of its target takes the type of its value, and not whether the
target is a variable. So the values and the names of enumerations can be assigned to as well, but
only a value of just their type, and such a value is read from a name of that type.
-/

set_option autoImplicit false

namespace TreeCheck

/-! ## Types that only names have -/

/-- A type that no literal and no operator has. -/
def Ty.isNominal : Ty → Bool
  | .enumType | .enumVar | .enumValue => true
  | _ => false

namespace Ty

variable {types : List Ty} {type : Ty}

private theorem isNominal_of_not_isVariable (constant : type.isVariable = false) :
    type.isNominal = true := by
  cases type with
  | enumType | enumValue => rfl
  | _ => cases constant

theorem IsLastKnown.mem (last : IsLastKnown types type) (nominal : type.isNominal = true) :
    type ∈ types := by
  cases last with
  | absent => cases nominal
  | present => simp

theorem IsShared.mem (shared : IsShared types type) (nominal : type.isNominal = true) :
    type ∈ types := by
  induction shared with
  | absent => cases nominal
  | indefinite _ ih => exact List.mem_cons_of_mem _ (ih nominal)
  | definite => exact List.mem_cons_self

theorem IsArithmetic.mem (arithmetic : IsArithmetic types type) (nominal : type.isNominal = true) :
    type ∈ types := by
  cases arithmetic with
  | single _ last => exact last.mem nominal
  | chain => cases nominal

end Ty

theorem Comparison.Joins.mem {operator : Option Comparison} {types : List Ty} {type : Ty}
    (joined : Joins operator types type) (nominal : type.isNominal = true) : type ∈ types := by
  cases joined with
  | single _ last => exact last.mem nominal
  | equality => cases nominal
  | order => cases nominal

/-! ## Where such types come from -/

section

variable {table after : SymbolTable} {type : Ty}

/-- A node has such a type only from a child, which is read as the walk reads it. -/
theorem HasType.mem_of_isNominal {label : Label} {children : List Node}
    (typed : HasType table ⟨label, children⟩ type after) (nominal : type.isNominal = true) :
    ∃ position types, HasTypes position table children types after ∧ type ∈ types ∧
      Node.walkBelow label 0 children = position.walked children ∧
      (position = .plain ∨ position = .value ∧ label = .genValue) := by
  cases typed with
  | block typed last | stmt typed last | expr typed last | notExpr typed last
  | unaExpr typed last =>
      exact ⟨.plain, _, typed, last.mem nominal, Node.walkBelow_eq_plain (fun _ _ => rfl) _,
        .inl rfl⟩
  | genValue typed last =>
      exact ⟨.value, _, typed, last.mem nominal, Node.walkBelow_genValue _, .inr ⟨rfl, rfl⟩⟩
  | compExpr typed joined =>
      exact ⟨.plain, _, typed, joined.mem nominal, Node.walkBelow_eq_plain (fun _ _ => rfl) _,
        .inl rfl⟩
  | addExpr typed arithmetic | mulExpr typed arithmetic =>
      exact ⟨.plain, _, typed, arithmetic.mem nominal, Node.walkBelow_eq_plain (fun _ _ => rfl) _,
        .inl rfl⟩
  | @boolExpr _ _ tokens _ _ _ typed shared =>
      cases tokens with
      | nil =>
          exact ⟨.plain, _, typed, shared.mem nominal, Node.walkBelow_eq_plain (fun _ _ => rfl) _,
            .inl rfl⟩
      | cons => cases nominal
  | _ => cases nominal

theorem HasTypes.exists_of_mem {position : Position} {children : List Node} {types : List Ty}
    (typed : HasTypes position table children types after) (member : type ∈ types) :
    ∃ child ∈ children, ∃ before middle, HasTypes position before [child] [type] middle ∧
      middle.IsPartOf after := by
  induction children generalizing table types with
  | nil =>
      cases typed
      cases member
  | cons child rest ih =>
      obtain ⟨first, later, middle, rfl, typedFirst, typedRest⟩ := hasTypes_cons_iff.mp typed
      obtain rfl | within := List.mem_cons.mp member
      · exact ⟨child, List.mem_cons_self, table, middle, typedFirst, typedRest.isPartOf⟩
      · obtain ⟨other, belongs, found⟩ := ih typedRest within
        exact ⟨other, List.mem_cons_of_mem _ belongs, found⟩

end

/-- In the walk of the tree, a name bound to this type is read as a value. -/
def Node.Reads (tree : Node) (type : Ty) (table : SymbolTable) : Prop :=
  ∃ node ∈ tree.walk, node.kind = .genValue ∧
    ∃ child ∈ node.children, ∃ name, child.identifier? = some name ∧ table.lookup name = some type

theorem HasType.reads {final : SymbolTable} {type : Ty} (nominal : type.isNominal = true)
    {node : Node} {table after : SymbolTable} (typed : HasType table node type after)
    (part : after.IsPartOf final) : node.Reads type final := by
  induction node using Node.childrenInduction generalizing table after with
  | step label children ih =>
      obtain ⟨position, types, below, member, walks, read⟩ := typed.mem_of_isNominal nominal
      obtain ⟨child, belongs, before, middle, single, within⟩ := below.exists_of_mem member
      rw [Node.Reads, Node.walk, walks]
      cases single with
      | walked walked typedChild none =>
          cases none
          obtain ⟨node, found, reads⟩ := ih child belongs typedChild (within.trans part)
          refine ⟨node, List.mem_cons_of_mem _ (List.mem_flatMap.mpr ⟨child, belongs, ?_⟩), reads⟩
          rwa [if_pos walked]
      | value bound none =>
          cases none
          obtain plain | ⟨-, rfl⟩ := read
          · cases plain
          · exact ⟨_, List.mem_cons_self, rfl, _, belongs, _, rfl, (within.trans part).lookup bound⟩
      | arm => cases nominal

/-! ## Assignments in accepted programs -/

/-- Every node walked in an accepted program is given a type on the way to the final table. -/
theorem Node.exists_isGiven {program node : Node} {metrics : Metrics}
    (accepted : analyze program = .ok metrics) (walked : node ∈ program.walked) :
    ∃ type, node.IsGiven type (Session.check {} program).session.symbols := by
  rcases run : Check.program program ⟨{}, []⟩ with ⟨outcome, after⟩
  have ended : Session.check {} program = ⟨outcome, after.session, after.log⟩ := by
    rw [Session.check, run]
  rw [analyze, ended] at accepted
  obtain rfl : outcome = .ok metrics := accepted
  rw [← Check.map_fst_annotateProgram, Check.map_eq_ok_iff] at run
  obtain ⟨read, annotated, -⟩ := run
  have nodes := Check.annotateProgram_ensures Check.declare program _ _ _ annotated
  rw [← nodes] at walked
  obtain ⟨pair, found, rfl⟩ := List.mem_map.mp walked
  rw [ended]
  exact ⟨pair.2, Check.findsGiven_annotateProgram _ program _ _ _ annotated (.refl _) pair found⟩

/-- The target of an assignment is bound as long as its value has a type. -/
theorem HasType.assigned {table after : SymbolTable} {children : List Node} {type : Ty}
    (typed : HasType table ⟨.assignStmt, children⟩ type after) :
    ∃ name value target valueType, (Node.mk .assignStmt children).NamesAt 0 name ∧
      children[1]? = some value ∧ table.lookup name = some target ∧
      HasType table value valueType after ∧ target.acceptsAssignment valueType = true := by
  cases typed with
  | assignStmt bound typed accepted =>
      exact ⟨_, _, _, _, rfl, rfl, bound, typed, Ty.acceptsAssignment_iff.mpr accepted⟩

/-- The target of every assignment that is walked in an accepted program is bound in the final
table. If it is not bound to a variable, the value has the very type of the target, and it reads a
name that is bound to this type. -/
theorem assigned_names_are_variables_or_alike {program node : Node} {metrics : Metrics}
    (accepted : analyze program = .ok metrics) (walked : node ∈ program.walked)
    (assignment : node.label = .assignStmt) :
    ∃ name value target type, node.NamesAt 0 name ∧ node.children[1]? = some value ∧
      (Session.check {} program).session.symbols.lookup name = some target ∧
      value.IsGiven type (Session.check {} program).session.symbols ∧
      (target.isVariable = true ∨
        type = target ∧ value.Reads target (Session.check {} program).session.symbols) := by
  obtain ⟨given, before, after, visited, part⟩ := Node.exists_isGiven accepted walked
  rcases node with ⟨label, children⟩
  obtain rfl : label = .assignStmt := assignment
  have typed := (Check.realizes_visit _ before given _).mp ⟨after, visited, rfl⟩
  obtain ⟨name, value, target, type, named, valued, bound, typedValue, accepts⟩ := typed.assigned
  have boundFinally := (typedValue.isPartOf.trans part).lookup bound
  obtain ⟨reached, valueVisited, left⟩ := (Check.realizes_visit value before type _).mpr typedValue
  refine ⟨name, value, target, type, named, valued, boundFinally,
    ⟨before, reached, valueVisited, left ▸ part⟩, ?_⟩
  cases constant : target.isVariable with
  | true => exact .inl rfl
  | false =>
      have nominal := Ty.isNominal_of_not_isVariable constant
      obtain rfl | ⟨rfl, -⟩ := Ty.acceptsAssignment_iff.mp accepts
      · exact .inr ⟨rfl, typedValue.reads nominal part⟩
      · cases constant

/-- An enumeration with one value, which is assigned to itself. -/
def Node.repainted : Node :=
  .program [.enumStmt "Color" ["Red"], .stmt (.assign "Red" (.expr (.var "Red")))]

theorem repainted_is_alike :
    analyze .repainted = .ok { enumValues := 1 } ∧
    .assign "Red" (.expr (.var "Red")) ∈ Node.repainted.walked ∧
    (Node.expr (.var "Red")).IsGiven .enumValue (Session.check {} .repainted).session.symbols ∧
    (Node.expr (.var "Red")).Reads .enumValue (Session.check {} .repainted).session.symbols := by
  have accepted : analyze .repainted = .ok { enumValues := 1 } := by decide +kernel
  have walked : .assign "Red" (.expr (.var "Red")) ∈ Node.repainted.walked :=
    .tail _ (.tail _ (.head _))
  have constant : (Session.check {} .repainted).session.symbols.lookup "Red" = some .enumValue := by
    decide +kernel
  obtain ⟨name, value, target, type, named, valued, bound, given, found⟩ :=
    assigned_names_are_variables_or_alike accepted walked rfl
  cases named
  cases valued
  cases constant.symm.trans bound
  obtain assignable | ⟨rfl, reads⟩ := found
  · cases assignable
  · exact ⟨accepted, walked, given, reads⟩

/-- The value of an enumeration is no variable, and yet an accepted program assigns to it. -/
theorem constant_is_assigned :
    analyze .repainted = .ok { enumValues := 1 } ∧
    ∃ node ∈ Node.repainted.walked, node.label = .assignStmt ∧ node.NamesAt 0 "Red" ∧
      (Session.check {} .repainted).session.symbols.lookup "Red" = some .enumValue ∧
      Ty.enumValue.isVariable = false := by
  refine ⟨by decide +kernel, _, .tail _ (.tail _ (.head _)), rfl, rfl, by decide +kernel, rfl⟩

end TreeCheck
