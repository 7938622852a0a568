import TreeCheck.Config.Basic
import TreeCheck.Toml.Shape
import TreeCheck.Toml.Writer

/-!
# Configurations in documents

A configuration is a TOML document with a table `project`, which holds the name and the list of
trees, and a table `output`, which may hold the metrics file. Both may also be arrays of their
fields. Fields that are not known are ignored. `Config.render` writes the document and
`Config.parse` reads it.
-/

set_option autoImplicit false

namespace TreeCheck.Config

open Toml (Value ShapeError Table)

/-! ## Reading -/

/-- The words for a path in messages about wrong types. -/
def expectedPath : String :=
  "path string"

def expectedProject : String :=
  "struct Project"

def expectedOutput : String :=
  "struct Output"

structure ProjectFields where
  name : Option String := none
  trees : List String := defaultTrees

def readProjectFields (fields : ProjectFields) : Table → Except ShapeError ProjectFields
  | [] => .ok fields
  | (key, value) :: rest => do
    if key = "name" then
      readProjectFields { fields with name := some (← value.asString "a string") } rest
    else if key = "trees" then
      readProjectFields { fields with trees := ← value.asStrings expectedPath } rest
    else
      readProjectFields fields rest

def readProject (value : Value) : Except ShapeError (String × List String) :=
  match value.entries?, value with
  | some entries, _ => do
    let fields ← readProjectFields {} entries
    match fields.name with
    | some name => return (name, fields.trees)
    | none => throw (.missingField "name")
  | none, .array _ [] => .error (.wrongLength 0 (expectedProject ++ " with 2 elements"))
  | none, .array _ [name] => do return (← name.asString "a string", defaultTrees)
  | none, .array _ (name :: trees :: _) => do
    return (← name.asString "a string", ← trees.asStrings expectedPath)
  | none, other => .error (.wrongType other expectedProject)

def readOutputFields (metrics : Option String) : Table → Except ShapeError (Option String)
  | [] => .ok metrics
  | (key, value) :: rest => do
    if key = "metrics" then readOutputFields (some (← value.asString expectedPath)) rest
    else readOutputFields metrics rest

def readOutput (value : Value) : Except ShapeError (Option String) :=
  match value.entries?, value with
  | some entries, _ => readOutputFields none entries
  | none, .array _ [] => .ok none
  | none, .array _ (metrics :: _) => do return some (← metrics.asString expectedPath)
  | none, other => .error (.wrongType other expectedOutput)

structure Parts where
  project : Option (String × List String) := none
  metrics : Option String := none

def readParts (parts : Parts) : Table → Except ShapeError Parts
  | [] => .ok parts
  | (key, value) :: rest => do
    if key = "project" then readParts { parts with project := some (← readProject value) } rest
    else if key = "output" then readParts { parts with metrics := ← readOutput value } rest
    else readParts parts rest

def ofTable (table : Table) : Except ShapeError Config := do
  let parts ← readParts {} table
  match parts.project with
  | some (name, trees) => return { name, trees, metrics := parts.metrics }
  | none => throw (.missingField "project")

def parse (source : String) : Except Toml.Error Config :=
  Toml.load ofTable source

/-! ## Writing -/

def line (key : String) (value : List Char) : List Char :=
  key.toList ++ [' ', '=', ' '] ++ value ++ ['\n']

def render (config : Config) : String :=
  let project := "[project]\n".toList ++ line "name" (Toml.writeString config.name.toList) ++
    line "trees" (Toml.writeStrings (config.trees.map String.toList))
  let output := "\n[output]\n".toList ++
    match config.metrics with
    | some metrics => line "metrics" (Toml.writeString metrics.toList)
    | none => []
  String.ofList (project ++ output)

end TreeCheck.Config
