import TreeCheck.Disk.Basic
import TreeCheck.Disk.Fault

/-!
# Following paths

A path is followed name by name from a directory. A `Trail` remembers the way, so that `..` leads
back along it, and holds what every name on it leads to.
-/

set_option autoImplicit false

namespace TreeCheck

/-- The names passed on the way from the root, the last one first, each with what it leads to, if it
leads to anything. -/
abbrev Trail := List (String × Option Entry)

namespace Trail

def target? (disk : Disk) : Trail → Option Entry
  | [] => some (.directory disk.entries)
  | (_, entry) :: _ => entry

def location (trail : Trail) : Location :=
  (trail.map Prod.fst).reverse

def directory (disk : Disk) (trail : Trail) : Except DiskFault Entries :=
  match trail.target? disk with
  | none => .error .notFound
  | some (.file _) => .error .notDirectory
  | some (.directory entries) => .ok entries

def maxNameLength : Nat := 255

/-- Follows one more name from a directory. There need not be anything at the end. -/
def step (disk : Disk) (trail : Trail) (name : String) : Except DiskFault Trail := do
  let entries ← trail.directory disk
  if name = "." then return trail
  else if name = ".." then return trail.tail
  else if maxNameLength < name.utf8ByteSize then throw .nameTooLong
  else return (name, entries.lookup name) :: trail

def follow (disk : Disk) (trail : Trail) (names : List String) : Except DiskFault Trail :=
  names.foldlM (step disk) trail

def push (disk : Disk) (trail : Trail) (name : String) : Trail :=
  (name, (trail.directory disk).toOption.bind (·.lookup name)) :: trail

def toLocation (disk : Disk) (location : Location) : Trail :=
  location.foldl (push disk) []

@[simp] theorem target?_nil (disk : Disk) :
    target? disk [] = some (.directory disk.entries) := rfl

@[simp] theorem target?_cons (disk : Disk) (name : String) (entry : Option Entry) (trail : Trail) :
    target? disk ((name, entry) :: trail) = entry := rfl

@[simp] theorem location_cons (name : String) (entry : Option Entry) (trail : Trail) :
    location ((name, entry) :: trail) = location trail ++ [name] := by
  simp [location]

end Trail

end TreeCheck
