import TreeCheck.Disk.Basic
import TreeCheck.Text.Lossy

/-!
# Listing a disk

Everything below a directory, with the paths relative to it. The path of a directory ends with a
slash.
-/

set_option autoImplicit false

namespace TreeCheck

def Content.shown : Content → String
  | .text content => content
  | .binary bytes => Text.lossy bytes

mutual

/-- An entry under its path, followed by everything below it. -/
def Entry.listing (path : String) : Entry → List (String × Option String)
  | .file content => [(path, some content.shown)]
  | .directory entries => (path ++ "/", none) :: listEntries (path ++ "/") entries

def listEntries (path : String) : List (String × Entry) → List (String × Option String)
  | [] => []
  | (name, entry) :: rest => entry.listing (path ++ name) ++ listEntries path rest

end

/-- The files and directories below a location with what they hold, in the order of their paths. -/
def Disk.listing (disk : Disk) (location : Location) : List (String × Option String) :=
  let found :=
    match disk.get? location with
    | some (.directory entries) => listEntries "" entries
    | _ => []
  found.mergeSort fun left right => decide (left.1 ≤ right.1)

end TreeCheck
