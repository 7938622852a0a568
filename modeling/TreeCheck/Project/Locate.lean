import TreeCheck.Config.Document
import TreeCheck.Disk.Storage
import TreeCheck.Project.Failure

/-!
# Finding a project

A project is a directory with a configuration file. The configuration in force is the nearest one,
in a directory or above it; a nearer file that cannot be used is not passed over.
-/

set_option autoImplicit false

namespace TreeCheck.Project

variable {m : Type → Type} [Monad m] [Storage m]

def loadConfig (path : String) : m (Except Failure Config) := do
  match ← Storage.readText path with
  | .error fault => return .error (.read path fault)
  | .ok source =>
    match Config.parse source with
    | .error cause => return .error (.parseConfig cause)
    | .ok config => return .ok config

def saveConfig (config : Config) (path : String) : m (Except Failure Unit) := do
  match ← Storage.writeText path config.render with
  | .error fault => return .error (.write path fault)
  | .ok () => return .ok ()

/-- The configuration of the first directory of a list that has one, with this directory. -/
def findAmong : List String → m (Except Failure (Config × String))
  | [] => return .error .noConfig
  | directory :: others => do
    let path := Path.join directory Config.fileName
    if ← Storage.pathExists path then
      match ← loadConfig path with
      | .error failure => return .error failure
      | .ok config => return .ok (config, directory)
    else findAmong others

/-- The configuration nearest to a directory, with the directory that has it. -/
def findFrom (start : String) : m (Except Failure (Config × String)) :=
  findAmong (Path.ancestors start)

def find : m (Except Failure (Config × String)) := do
  match ← findFrom (← Storage.workingDirectory) with
  | .error failure => return .error (.outsideProject failure)
  | .ok found => return .ok found

end TreeCheck.Project
