import TreeCheck.Command.Report
import TreeCheck.Project.Locate
import TreeCheck.Project.Trees

/-!
# The command `check`

Checks the tree files it is given and prints their records. Without files it checks those of the
project around the working directory and sends the records where the project wants them.
-/

set_option autoImplicit false

namespace TreeCheck.Command

variable {m : Type → Type} [Monad m] [Storage m]

/-- Checks tree files and hands out their records, after the status messages in `status`. -/
def checkFiles (status : List String) (paths : List String) (destination : Option String) :
    m Report := do
  match ← Project.checkTrees paths with
  | .error failure => return { status, failure := some failure }
  | .ok records =>
    match ← Project.emit records destination with
    | .error failure => return { status, failure := some failure }
    | .ok stdout => return { stdout, status := status ++ [Status.finished records.length] }

def check (trees : List String) : m Report := do
  if trees.isEmpty then
    match ← Project.find with
    | .error failure => return { failure := some failure }
    | .ok (config, root) =>
      checkFiles [Status.checking config.name root] (config.treePaths root)
        (config.metricsPath root)
  else
    checkFiles [] trees none

end TreeCheck.Command
