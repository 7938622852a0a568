import TreeCheck.Disk.Storage
import TreeCheck.Disk.Trail

/-!
# A machine as a value

A disk with a working directory, and the operations of `Storage` on it, with the faults that a file
system reports.
-/

set_option autoImplicit false

namespace TreeCheck

structure Machine where
  disk : Disk := {}
  workingDirectory : Location := []

namespace Machine

/-! ## Following paths -/

/-- The pieces of a path that name something; single dots count, empty pieces do not. -/
def pathNames (path : String) : List String :=
  ((Path.pieces path.toList).filter (· != [])).map String.ofList

/-- The length, in bytes, from which a path is refused. -/
def pathLimit : Nat := 4096

/-- A path ready to be followed: where it starts, the names before the last one, the last one, and
whether a slash follows it. -/
structure Route where
  start : Trail
  before : List String
  last : Option String
  trailing : Bool

/-- The route of a path. An empty path, a path with a NUL character and a path that is too long lead
nowhere. -/
def route (machine : Machine) (path : String) : Except DiskFault Route :=
  if path.toList.contains '\x00' then .error .nulInPath
  else if path.isEmpty then .error .notFound
  else if pathLimit ≤ path.utf8ByteSize then .error .nameTooLong
  else
    let names := pathNames path
    let start :=
      if Path.isAbsolute path then [] else Trail.toLocation machine.disk machine.workingDirectory
    .ok ⟨start, names.dropLast, names.getLast?, path.toList.getLast? == some '/'⟩

/-- Whether the last name of a route stands for a directory that must exist already. -/
def Route.isDotted (route : Route) : Bool :=
  match route.last with
  | some name => name == "." || name == ".."
  | none => true

def holder (machine : Machine) (route : Route) : Except DiskFault Trail :=
  route.start.follow machine.disk route.before

/-- The whole way of a route; there need not be anything at its end. -/
def trail (machine : Machine) (route : Route) : Except DiskFault Trail := do
  (← machine.holder route).follow machine.disk route.last.toList

/-- What a path leads to. A slash at its end asks for a directory. -/
def find (machine : Machine) (path : String) : Except DiskFault Entry := do
  let route ← machine.route path
  match (← machine.trail route).target? machine.disk with
  | none => throw .notFound
  | some (.directory entries) => return .directory entries
  | some file => if route.trailing then throw .notDirectory else return file

/-! ## Operations -/

def readText (machine : Machine) (path : String) : Except DiskFault String := do
  match ← machine.find path with
  | .file (.text content) => return content
  | .file (.binary _) => throw .notText
  | .directory _ => throw .isDirectory

/-- Puts a file in a directory that exists, over the file that may be there. A path that can only
mean a directory is refused before its last name is looked at. -/
def writeFile (machine : Machine) (path : String) (content : Content) :
    Except DiskFault Machine := do
  let route ← machine.route path
  let holder ← machine.holder route
  let _ ← holder.directory machine.disk
  if route.trailing || route.isDotted then throw .isDirectory
  let trail ← holder.follow machine.disk route.last.toList
  match trail.target? machine.disk with
  | some (.directory _) => throw .isDirectory
  | _ => return { machine with disk := machine.disk.put trail.location (.file content) }

def writeText (machine : Machine) (path content : String) : Except DiskFault Machine :=
  machine.writeFile path (.text content)

def makeDirectory (machine : Machine) (path : String) : Except DiskFault Machine := do
  let route ← machine.route path
  let trail ← machine.trail route
  if route.isDotted then throw .alreadyExists
  match trail.target? machine.disk with
  | some _ => throw .alreadyExists
  | none => return { machine with disk := machine.disk.put trail.location (.directory []) }

def enter (machine : Machine) (path : String) : Except DiskFault Machine := do
  let trail ← machine.trail (← machine.route path)
  let _ ← trail.directory machine.disk
  return { machine with workingDirectory := trail.location }

def isDirectory (machine : Machine) (path : String) : Bool :=
  match machine.find path with
  | .ok (.directory _) => true
  | _ => false

def pathExists (machine : Machine) (path : String) : Bool :=
  (machine.find path).toBool

def absolutePath (location : Location) : String :=
  "/" ++ "/".intercalate location

abbrev Simulated := StateM Machine

def update (change : Machine → Except DiskFault Machine) : Simulated (Except DiskFault Unit) :=
  fun machine =>
    match change machine with
    | .ok after => (.ok (), after)
    | .error fault => (.error fault, machine)

instance : Storage Simulated where
  workingDirectory := fun machine => (absolutePath machine.workingDirectory, machine)
  readText path := fun machine => (machine.readText path, machine)
  writeText path content := update fun machine => machine.writeText path content
  makeDirectory path := update fun machine => machine.makeDirectory path
  isDirectory path := fun machine => (machine.isDirectory path, machine)
  pathExists path := fun machine => (machine.pathExists path, machine)

end Machine

end TreeCheck
