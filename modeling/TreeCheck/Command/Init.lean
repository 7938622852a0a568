import TreeCheck.Command.Report
import TreeCheck.Project.Locate

/-!
# The command `init`

Makes a project of a directory: a configuration named for the directory, and the tree files it
lists, with a small program in those that are not there yet.
-/

set_option autoImplicit false

namespace TreeCheck.Command

variable {m : Type → Type} [Monad m] [Storage m]

/-- The document of the program `num a; a = 1 + 2;`, line by line. -/
def starterLines : List String :=
  [ r#"kind = "Program""#,
    "",
    "[[children]]",
    r#"kind = "Declaration""#,
    r#"value = "num""#,
    r#"children = [{ kind = "Identifier", value = "a" }]"#,
    "",
    "[[children]]",
    r#"kind = "Stmt""#,
    "",
    "[[children.children]]",
    r#"kind = "AssignStmt""#,
    "",
    "[[children.children.children]]",
    r#"kind = "Identifier""#,
    r#"value = "a""#,
    "",
    "[[children.children.children]]",
    r#"kind = "Expr""#,
    "",
    "[[children.children.children.children]]",
    r#"kind = "AddExpr""#,
    "children = [",
    r#"    { kind = "GenValue", children = [{ kind = "IntValue", value = 1 }] },"#,
    r#"    { kind = "GenValue", children = [{ kind = "IntValue", value = 2 }] },"#,
    "]" ]

def starterTree : String :=
  String.join (starterLines.map fun line => line ++ "\n")

/-- The name of a project in a directory that has no name. -/
def defaultName : String :=
  "sema-project"

def plantTree (path : String) : m (Except Failure Unit) := do
  if ← Storage.pathExists path then return .ok ()
  else
    match ← Storage.makeParents path with
    | .error (directory, fault) => return .error (.create directory fault)
    | .ok () =>
      match ← Storage.writeText path starterTree with
      | .error fault => return .error (.create path fault)
      | .ok () => return .ok ()

def plantTrees : List String → m (Except Failure Unit)
  | [] => return .ok ()
  | path :: rest => do
    match ← plantTree path with
    | .error failure => return .error failure
    | .ok () => plantTrees rest

def init (directory : String) : m Report := do
  let configPath := Path.join directory Config.fileName
  if ← Storage.pathExists configPath then
    return { failure := some (.projectExists directory) }
  else
    let name := (Path.fileName? directory).getD defaultName
    let config := Config.new name
    match ← Project.saveConfig config configPath with
    | .error failure => return { failure := some failure }
    | .ok () =>
      match ← plantTrees (config.treePaths directory) with
      | .error failure => return { failure := some failure }
      | .ok () => return { status := Status.created name }

end TreeCheck.Command
