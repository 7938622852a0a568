import TreeCheck.Outline.Basic
import TreeCheck.Toml.Shape

/-!
# Outlines in documents

A node is a table with the fields `kind`, `value`, `ops` and `children`; below the root it may also
be an array of these four in this order, cut short anywhere after the kind. The fields of a table
are read in the order of the document, each with all that is below it, and a missing kind is noticed
last.
-/

set_option autoImplicit false

namespace TreeCheck.Outline

open Toml (Value ShapeError Table)

/-- The fields of a node, in the order of the array form. -/
def fieldNames : List String :=
  ["kind", "value", "ops", "children"]

def expectedNode : String :=
  "struct RawNode"

def kindNamed (name : String) : Except ShapeError Kind :=
  match Kind.ofName? name with
  | some kind => .ok kind
  | none => .error (.unknownVariant name (Kind.all.map Kind.name))

/-- Reads a kind: its name, or a table whose only key is its name, over an empty table or array. -/
def readKind : Value → Except ShapeError Kind
  | .string name => kindNamed name
  | .table [] => .error .noVariant
  | .table [(name, content)] => do
    let kind ← kindNamed name
    match content with
    | .table [] | .array _ [] => return kind
    | .table _ | .array .listed _ => throw .variantNotEmpty
    | .array .headed _ => throw .variantHasTables
    | other => throw (.variantContent other)
  | .table _ => .error .manyVariants
  | _ => .error .notVariant

def readPayload : Value → Except ShapeError Payload
  | .boolean value => .ok (.bool value)
  | .integer value => .ok (.integer value)
  | .string text => .ok (.text text)
  | _ => .error (.noAlternative "RawValue")

structure Fields where
  kind : Option Kind := none
  value : Option Payload := none
  tokens : List String := []
  children : List Outline := []

def Fields.finish (fields : Fields) : Except ShapeError Outline :=
  match fields.kind with
  | some kind => .ok ⟨kind, fields.value, fields.tokens, fields.children⟩
  | none => .error (.missingField "kind")

mutual

def ofValue : Value → Except ShapeError Outline
  | .table entries => do (← ofEntries {} entries).finish
  | .array _ items => ofItems items
  | .datetime _ => .error (.unknownField Toml.datetimeField fieldNames)
  | other => .error (.wrongType other expectedNode)

def ofItems : List Value → Except ShapeError Outline
  | [] => .error (.wrongLength 0 (expectedNode ++ " with 4 elements"))
  | [kind] => do return ⟨← readKind kind, none, [], []⟩
  | [kind, value] => do return ⟨← readKind kind, some (← readPayload value), [], []⟩
  | [kind, value, tokens] => do
    return ⟨← readKind kind, some (← readPayload value), ← tokens.asStrings "a string", []⟩
  | kind :: value :: tokens :: children :: _ => do
    return ⟨← readKind kind, some (← readPayload value), ← tokens.asStrings "a string",
      ← ofChildren children⟩

/-- Reads the fields of a node written as a table, after those in `fields`. -/
def ofEntries (fields : Fields) : Table → Except ShapeError Fields
  | [] => .ok fields
  | (key, value) :: rest => do
    if key = "kind" then
      ofEntries { fields with kind := some (← readKind value) } rest
    else if key = "value" then
      ofEntries { fields with value := some (← readPayload value) } rest
    else if key = "ops" then
      ofEntries { fields with tokens := ← value.asStrings "a string" } rest
    else if key = "children" then
      ofEntries { fields with children := ← ofChildren value } rest
    else
      .error (.unknownField key fieldNames)

def ofChildren : Value → Except ShapeError (List Outline)
  | .array _ items => ofValues items
  | other => .error (.wrongType other "a sequence")

def ofValues : List Value → Except ShapeError (List Outline)
  | [] => .ok []
  | value :: rest => do
    let outline ← ofValue value
    return outline :: (← ofValues rest)

end

def ofTable (table : Table) : Except ShapeError Outline :=
  ofValue (.table table)

end TreeCheck.Outline
