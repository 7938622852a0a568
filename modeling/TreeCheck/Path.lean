/-!
# Paths

Paths are texts in which slashes separate names. Joining, taking the parent and taking the last name
work on the text alone: nothing is looked up, and `..` is a name like any other except that it is
never the name of a project.

Repeated slashes count as one, and a name `.` counts as nothing unless it opens a relative path.
-/

set_option autoImplicit false

namespace TreeCheck.Path

def isAbsolute (path : String) : Bool :=
  path.toList.head? == some '/'

/-- Appends `path` to `base`. An absolute path replaces the base; otherwise one slash separates the
two unless the base is empty or ends with one. -/
def join (base path : String) : String :=
  if isAbsolute path then path
  else if base.toList.isEmpty || base.toList.getLast? == some '/' then base ++ path
  else base ++ "/" ++ path

/-- The pieces between the slashes, the empty ones included. -/
def pieces : List Char → List (List Char)
  | [] => [[]]
  | char :: rest =>
    if char = '/' then [] :: pieces rest
    else
      match pieces rest with
      | [] => [[char]]
      | piece :: others => (char :: piece) :: others

def isIdle (piece : List Char) : Bool :=
  piece == [] || piece == ['.']

def names (path : String) : List String :=
  let parts := pieces path.toList
  let leading := if parts.head? = some ['.'] then ["."] else []
  leading ++ (parts.filter (!isIdle ·)).map String.ofList

/-- The last name of a path, unless the path ends in `..` or has no name but a leading dot. -/
def fileName? (path : String) : Option String :=
  match (names path).getLast? with
  | some name => if name = "." ∨ name = ".." then none else some name
  | none => none

/-- Drops slashes and single dots at the end of a path, given from its end, but not the root. -/
def trimEnd : List Char → List Char
  | ['/'] => ['/']
  | '/' :: rest => trimEnd rest
  | ['.', '/'] => ['/']
  | '.' :: '/' :: rest => trimEnd rest
  | reversed => reversed

/-- The path without its last name. The root and the empty path have no parent. -/
def parent? (path : String) : Option String :=
  match trimEnd path.toList.reverse with
  | [] | ['/'] => none
  | trimmed => some (String.ofList (trimEnd (trimmed.dropWhile (· != '/'))).reverse)

def ancestorsWithin : Nat → String → List String
  | 0, path => [path]
  | limit + 1, path =>
    match parent? path with
    | none => [path]
    | some above => path :: ancestorsWithin limit above

/-- A path and all paths above it, nearest first. A parent is shorter than its child, so the length
of the path bounds their number. -/
def ancestors (path : String) : List String :=
  ancestorsWithin path.length path

end TreeCheck.Path
