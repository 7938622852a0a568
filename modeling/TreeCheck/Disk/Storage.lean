import TreeCheck.Disk.Fault
import TreeCheck.Path

/-!
# Access to files

The commands of this library touch files through a few operations only. `Storage` lists them, so
that the same commands run on the disk of the machine and on a disk that is a mere value, about
which one can reason.
-/

set_option autoImplicit false

namespace TreeCheck

/-- The operations on files that commands use. Relative paths start at the working directory. -/
class Storage (m : Type → Type) where
  /-- The absolute path of the working directory. -/
  workingDirectory : m String
  /-- The text of a file. -/
  readText : String → m (Except DiskFault String)
  /-- Makes a file with this text, or replaces the text of the file that is there. -/
  writeText : String → String → m (Except DiskFault Unit)
  /-- Makes one directory. -/
  makeDirectory : String → m (Except DiskFault Unit)
  /-- Whether the path leads to a directory. -/
  isDirectory : String → m Bool
  /-- Whether the path leads to anything. -/
  pathExists : String → m Bool

namespace Storage

variable {m : Type → Type} [Monad m] [Storage m]

/-- Makes a directory; one that is there already will do. -/
def ensureDirectory (path : String) : m (Except DiskFault Unit) := do
  match ← makeDirectory path with
  | .ok () => return .ok ()
  | .error fault => if ← isDirectory path then return .ok () else return .error fault

/-- Makes every directory of a list, given from the deepest up. A directory is only tried again when
something above it was missing and could be made. -/
def makeChain : List String → m (Except DiskFault Unit)
  | [] => return .error .noRoot
  | path :: above => do
    if path.isEmpty then return .ok ()
    else
      match ← ensureDirectory path with
      | .error .notFound => do
        match ← makeChain above with
        | .ok () => ensureDirectory path
        | .error fault => return .error fault
      | outcome => return outcome

def makeDirectories (path : String) : m (Except DiskFault Unit) :=
  makeChain (Path.ancestors path)

def makeParents (path : String) : m (Except (String × DiskFault) Unit) :=
  match Path.parent? path with
  | none => return .ok ()
  | some above => do
    match ← makeDirectories above with
    | .ok () => return .ok ()
    | .error fault => return .error (above, fault)

end Storage

end TreeCheck
