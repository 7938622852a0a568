import TreeCheck.Check.Program
import TreeCheck.Disk.Storage
import TreeCheck.Project.Failure

/-!
# Checking tree files

Loading tree files, checking them one by one, and handing out the records. Trees do not share names
or counters, and the first file that fails ends the check.
-/

set_option autoImplicit false

namespace TreeCheck.Project

variable {m : Type → Type} [Monad m] [Storage m]

def readTree (path : String) : m (Except LoadError Node) := do
  match ← Storage.readText path with
  | .error fault => return .error (.unreadable fault)
  | .ok source => return parseTree source

def loadTree (path : String) : m (Except Failure Node) := do
  match ← readTree path with
  | .error cause => return .error (.loadTree path cause)
  | .ok node => return .ok node

def checkTree (path : String) : m (Except Failure Metrics) := do
  match ← loadTree path with
  | .error failure => return .error failure
  | .ok node =>
    match analyze node with
    | .error cause => return .error (.analysis cause)
    | .ok metrics => return .ok metrics

/-- The records of tree files, in their order; the first file that fails decides. -/
def checkTrees : List String → m (Except Failure (List Metrics))
  | [] => return .ok []
  | path :: rest => do
    match ← checkTree path with
    | .error failure => return .error failure
    | .ok metrics =>
      match ← checkTrees rest with
      | .error failure => return .error failure
      | .ok records => return .ok (metrics :: records)

/-- Hands out records, one to a line: to a file, whose directory is made when it is missing, or as
the text to print. -/
def emit (records : List Metrics) : Option String → m (Except Failure String)
  | none => return .ok (Metrics.report records)
  | some destination => do
    match ← Storage.makeParents destination with
    | .error (directory, fault) => return .error (.create directory fault)
    | .ok () =>
      match ← Storage.writeText destination (Metrics.report records) with
      | .error fault => return .error (.write destination fault)
      | .ok () => return .ok ""

end TreeCheck.Project
