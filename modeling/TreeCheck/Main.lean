import TreeCheck.Command.Run

/-!
# The program

Runs the command line on the disk of the machine.
-/

set_option autoImplicit false

namespace TreeCheck

/-- The fault with a number of the operating system, which may come with its sign changed. -/
def DiskFault.ofCode (code : UInt32) (details : String) : DiskFault :=
  let number := if code < 0x80000000 then code else 0 - code
  if number = 2 then .notFound
  else if number = 17 then .alreadyExists
  else if number = 20 then .notDirectory
  else if number = 21 then .isDirectory
  else if number = 36 then .nameTooLong
  else .other (details ++ " (os error " ++ toString number ++ ")")

def DiskFault.ofError : IO.Error → DiskFault
  | .noFileOrDirectory _ code details => .ofCode code details
  | .alreadyExists _ code details => .ofCode code details
  | .inappropriateType _ code details => .ofCode code details
  | .invalidArgument _ code details => .ofCode code details
  | .permissionDenied _ code details => .ofCode code details
  | error => .other (toString error)

/-- Runs an operation on a path, which must not hold a NUL character. -/
def onPath {α : Type} (path : String) (operation : IO (Except DiskFault α)) :
    IO (Except DiskFault α) :=
  if path.toList.contains '\x00' then return .error .nulInPath
  else
    try operation
    catch error => return .error (.ofError error)

instance : Storage IO where
  workingDirectory := do return (← IO.currentDir).toString
  readText path := onPath path do
    match String.fromUTF8? (← IO.FS.readBinFile path) with
    | some content => return .ok content
    | none => return .error .notText
  writeText path content := onPath path do
    IO.FS.writeFile path content
    return .ok ()
  makeDirectory path := onPath path do
    IO.FS.createDir path
    return .ok ()
  isDirectory path :=
    try (do (← IO.FS.realPath path).isDir)
    catch _ => return false
  pathExists path :=
    try (do (← IO.FS.realPath path).pathExists)
    catch _ => return false

end TreeCheck

def main (arguments : List String) : IO UInt32 := do
  let outcome ← TreeCheck.Command.run arguments
  IO.print outcome.stdout
  for line in outcome.stderr do
    IO.eprintln line
  return outcome.exitCode.toUInt32
