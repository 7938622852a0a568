import Mathlib.Algebra.GroupWithZero.Nat
import TreeCheck.Proofs.Growth
import TreeCheck.Proofs.Steps

/-!
# Checking with words

A machine counts in words of 64 bits and reaches the children of a node by their index. Not all of
its operations have a result: a sum may be too large for a word, one cannot be taken from nothing,
and a list cannot be cut behind its end. The walk is written here with such operations.
-/

set_option autoImplicit false

namespace TreeCheck

namespace Word

/-! ## Operations -/

/-- The counters, each in a word. -/
structure Counters where
  vars : UInt64 := 0
  whiles : UInt64 := 0
  ifs : UInt64 := 0
  enumValues : UInt64 := 0
  operators : UInt64 := 0
deriving DecidableEq, Repr

/-- What can stop a machine: a fault of the tree, or an operation that has no result. -/
inductive Halt
  | fault (fault : Fault)
  | overflow
  /-- One is taken from the length of an empty list. -/
  | underflow
  /-- A list is cut behind its end. -/
  | outOfRange
deriving DecidableEq, Repr

structure State where
  symbols : SymbolTable := .empty
  counters : Counters := {}
deriving DecidableEq

/-- A step of a machine. As in a walk, a step that stops hands on the state it has reached. -/
abbrev Step := ExceptT Halt (StateM State)

/-- Adds two words. A sum that does not fit stops a trapping machine, and wraps around in any other.
-/
def add (trapping : Bool) (left right : UInt64) : Option UInt64 :=
  if trapping = true ∧ 2 ^ 64 ≤ left.toNat + right.toNat then none else some (left + right)

/-- Adds to the counters, but for the one of variables, which is only ever written. -/
def Counters.add (trapping : Bool) (counters amount : Counters) : Option Counters := do
  let whiles ← Word.add trapping counters.whiles amount.whiles
  let ifs ← Word.add trapping counters.ifs amount.ifs
  let enumValues ← Word.add trapping counters.enumValues amount.enumValues
  let operators ← Word.add trapping counters.operators amount.operators
  return { counters with whiles, ifs, enumValues, operators }

def reject {α : Type} (broken : Violation) : Step α :=
  throw (.fault (.violation broken))

def malformed {α : Type} (shape : Malformed) : Step α :=
  throw (.fault (.malformed shape))

def count (trapping : Bool) (amount : Counters) : Step Unit :=
  fun state =>
    match state.counters.add trapping amount with
    | some counters => (.ok (), { state with counters })
    | none => (.error .overflow, state)

def table : Step SymbolTable :=
  fun state => (.ok state.symbols, state)

def lookup (name : String) : Step (Option Ty) := do
  return (← table).lookup name

def declare (name : String) (type : Ty) : Step Unit :=
  fun state =>
    match state.symbols.declare name type with
    | .ok symbols => (.ok (), { state with symbols })
    | .error broken => (.error (.fault (.violation broken)), state)

/-- The length of a list less one. -/
def lengthLessOne (children : List Node) : Step UInt64 :=
  if children.length = 0 then throw .underflow else return UInt64.ofNat children.length - 1

/-- Passes if the list can be cut at `start`. -/
def cut (start : Nat) (children : List Node) : Step Unit :=
  if start ≤ children.length then return () else throw .outOfRange

/-! ## Rules that walk nothing -/

def identifierAt (parent : Kind) (children : List Node) (index : Nat) : Step String :=
  match children[index]? with
  | none => malformed (.missingChild parent index)
  | some child =>
    match child.identifier? with
    | none => malformed (.notIdentifier parent index child.kind)
    | some name => return name

def resolve (name : String) : Step Ty := do
  match ← lookup name with
  | some type => return type
  | none => reject (.undefinedIdentifier name)

def declareVariable (typeName : Option String) (children : List Node) : Step Unit := do
  if children.length > 1 then
    let enumType ← identifierAt .declaration children 0
    let name ← identifierAt .declaration children 1
    let symbols ← table
    if symbols.isTypeName enumType then declare name (symbols.declaredType enumType)
    else reject (.unknownDeclaredType name enumType)
  else
    let name ← identifierAt .declaration children 0
    let symbols ← table
    declare name ((typeName.map symbols.declaredType).getD .unknown)

/-- Binds `remaining` values of an enumeration, from the child at `index` on. -/
def declareValues (children : List Node) (index : Nat) : Nat → Step Unit
  | 0 => return ()
  | remaining + 1 => do
    declare (← identifierAt .enumStmt children index) .enumValue
    declareValues children (index + 1) remaining

def declareEnum (trapping : Bool) (children : List Node) : Step Unit := do
  let typeName ← identifierAt .enumStmt children 0
  let enumValues ← lengthLessOne children
  count trapping { enumValues }
  declare typeName .enumType
  declareValues children 1 (children.length - 1)

def caseLabel (subject : Ty) (children : List Node) : Step Ty :=
  match children[0]? with
  | none => malformed (.missingChild .caseStmt 0)
  | some label =>
    match label.label with
    | .identifier name => do
      let type ← lookup name
      if type.any subject.acceptsCase then return .unknown
      else reject (.invalidCaseType (.identifier name))
    | .intValue value =>
      if subject.acceptsCase .number then return .unknown
      else reject (.invalidCaseType (.integer value))
    | other => malformed (.caseLabel other.kind)

/-! ## The walk -/

variable (trapping : Bool)

mutual

/-- Applies the rule of a node. -/
def visit : Node → Step Ty
  | ⟨label, children⟩ =>
    match label with
    | .program => malformed .nestedProgram
    | .caseStmt => malformed .strayCase
    | .declaration typeName => do
      declareVariable typeName children
      return .unknown
    | .enumStmt => do
      declareEnum trapping children
      return .unknown
    | .block | .stmt | .expr => do
      return Ty.lastKnown (← visitFrom .plain .any [] 0 children)
    | .genValue => do
      return Ty.lastKnown (← visitFrom .value .any [] 0 children)
    | .ifStmt => do
      count trapping { ifs := 1 }
      let condition ← visitAt .ifStmt 0 0 children
      cut 1 children
      let _ ← visitFrom .plain .any [] 1 children
      if condition = .bool then return .unknown else reject .invalidConditionType
    | .whileStmt => do
      count trapping { whiles := 1 }
      let condition ← visitAt .whileStmt 0 0 children
      cut 1 children
      let _ ← visitFrom .plain .any [] 1 children
      if condition = .bool then return .unknown else reject .invalidConditionType
    | .assignStmt => do
      let name ← identifierAt .assignStmt children 0
      let target ← lookup name
      let type ← visitAt .assignStmt 1 1 children
      if target.any (·.acceptsAssignment type) then return .unknown
      else reject (.invalidAssignmentType name)
    | .switchStmt => do
      let name ← identifierAt .switchStmt children 0
      match (← lookup name).filter Ty.isSwitchable with
      | none => reject (.invalidSwitchType name)
      | some type => do
        cut 1 children
        let _ ← visitFrom (.arm type) .any [] 1 children
        return .unknown
    | .compExpr operator => do
      match ← visitFrom .plain .any [] 0 children with
      | [] => return .unknown
      | [type] => return type
      | first :: rest => do
        count trapping { operators := UInt64.ofNat rest.length }
        if Comparison.admits operator first rest then return .bool
        else reject .invalidExpressionType
    | .addExpr | .mulExpr =>
      if children.length ≤ 1 then do
        return Ty.lastKnown (← visitFrom .plain .any [] 0 children)
      else do
        count trapping { operators := 1 }
        let _ ← visitFrom .plain .numbers [] 0 children
        return .number
    | .boolExpr tokens => do
      let types ← visitFrom .plain .alike [] 0 children
      if tokens.isEmpty then return Ty.firstKnown types
      else
        count trapping { operators := 1 }
        return .bool
    | .notExpr tokens =>
      if tokens.isEmpty then do
        return Ty.lastKnown (← visitFrom .plain .any [] 0 children)
      else do
        count trapping { operators := 1 }
        if (← visitAt .notExpr 0 0 children) = .bool then return .bool
        else reject .invalidExpressionType
    | .unaExpr tokens => do
      if tokens.isEmpty then pure () else count trapping { operators := 1 }
      return Ty.lastKnown (← visitFrom .plain .any [] 0 children)
    | .boolValue _ => return .bool
    | .intValue _ => return .number
    | .identifier _ => return .unknown
termination_by structural node => node

/-- Walks the child that stands so many places on; its index below a node of kind `parent` is
`index`. -/
def visitAt (parent : Kind) (index : Nat) : Nat → List Node → Step Ty
  | _, [] => malformed (.missingChild parent index)
  | 0, child :: _ => visit child
  | places + 1, _ :: rest => visitAt parent index places rest
termination_by structural _ children => children

/-- Reads children from left to right, leaving out the first `start`. -/
def visitFrom (position : Position) (admitted : Admission) (earlier : List Ty) :
    Nat → List Node → Step (List Ty)
  | _, [] => return earlier
  | start + 1, _ :: rest => visitFrom position admitted earlier start rest
  | 0, child :: rest => do
    let type ←
      match position, child.label with
      | .value, .identifier name => resolve name
      | .arm subject, .caseStmt => caseLabel subject child.children
      | _, _ => visit child
    if admitted earlier type then visitFrom position admitted (earlier ++ [type]) 0 rest
    else reject .invalidExpressionType
termination_by structural _ children => children

end

/-- Reads one child in a position. -/
def read (position : Position) (child : Node) : Step Ty :=
  match position, child.label with
  | .value, .identifier name => resolve name
  | .arm subject, .caseStmt => caseLabel subject child.children
  | _, _ => visit trapping child

theorem visitFrom_cons (position : Position) (admitted : Admission) (earlier : List Ty)
    (child : Node) (rest : List Node) :
    visitFrom trapping position admitted earlier 0 (child :: rest) =
      (read trapping position child >>= fun type =>
        if admitted earlier type then
          visitFrom trapping position admitted (earlier ++ [type]) 0 rest
        else reject .invalidExpressionType) := by
  rcases child with ⟨label, below⟩
  cases position with
  | plain => rfl
  | value => cases label <;> rfl
  | arm subject => cases label <;> rfl

theorem visitAt_of_missing (parent : Kind) (index : Nat) {places : Nat} {children : List Node}
    (missing : children[places]? = none) :
    visitAt trapping parent index places children = malformed (.missingChild parent index) := by
  induction children generalizing places with
  | nil => rw [visitAt]
  | cons first rest ih =>
      cases places with
      | zero => simp at missing
      | succ places =>
          rw [visitAt]
          exact ih (by simpa using missing)

/-- Writes the number of variables into their counter. -/
def countVariables : Step Counters :=
  fun state =>
    let counters := { state.counters with vars := UInt64.ofNat state.symbols.variableCount }
    (.ok counters, { state with counters })

/-- Checks a program. -/
def program (program : Node) : Step Counters :=
  match program.label with
  | .program => do
    let _ ← visitFrom trapping .plain .any [] 0 program.children
    countVariables
  | other => malformed (.root other.kind)

/-- What the check of one program gives, and the state it leaves. -/
structure Run where
  outcome : Except Halt Counters
  state : State

/-- Checks one more program. -/
def State.check (state : State) (program : Node) : Run :=
  let (outcome, after) := Word.program trapping program state
  ⟨outcome, after⟩

/-- Checks programs one after the other, going on after a halt. -/
def State.checkAll (state : State) : List Node → List Run
  | [] => []
  | program :: rest =>
    let run := state.check trapping program
    run :: run.state.checkAll rest

/-! ## Numbers in words -/

def Counters.ofMetrics (metrics : Metrics) : Counters where
  vars := UInt64.ofNat metrics.vars
  whiles := UInt64.ofNat metrics.whiles
  ifs := UInt64.ofNat metrics.ifs
  enumValues := UInt64.ofNat metrics.enumValues
  operators := UInt64.ofNat metrics.operators

def State.ofSession (session : Session) : State :=
  ⟨session.symbols, .ofMetrics session.metrics⟩

def Counters.toMetrics (counters : Counters) : Metrics where
  vars := counters.vars.toNat
  whiles := counters.whiles.toNat
  ifs := counters.ifs.toNat
  enumValues := counters.enumValues.toNat
  operators := counters.operators.toNat

def State.toSession (state : State) : Session :=
  ⟨state.symbols, state.counters.toMetrics⟩

theorem State.ofSession_toSession (state : State) : ofSession state.toSession = state := by
  rcases state with ⟨symbols, vars, whiles, ifs, enumValues, operators⟩
  simp [ofSession, toSession, Counters.ofMetrics, Counters.toMetrics]

end Word

end TreeCheck
