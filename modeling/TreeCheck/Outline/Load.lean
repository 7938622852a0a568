import TreeCheck.Disk.Fault
import TreeCheck.Outline.Shape

/-!
# Reading trees

From the text of a document to a tree, with the three ways this can fail.
-/

set_option autoImplicit false

namespace TreeCheck

inductive LoadError
  /-- The file cannot be read. -/
  | unreadable (fault : DiskFault)
  /-- The text is no TOML document, or one of the wrong shape. -/
  | document (error : Toml.Error)
  /-- The data of a node does not fit its kind. -/
  | defect (defect : Defect)

namespace LoadError

def message : LoadError → String
  | .unreadable fault => "IO error: " ++ fault.message
  | .document error => Malformed.report error.message
  | .defect found => Malformed.report found.message

def code : LoadError → Option String
  | .unreadable _ => none
  | .document _ | .defect _ => some Malformed.code

end LoadError

def parseTree (source : String) : Except LoadError Node :=
  match Toml.load Outline.ofTable source with
  | .error error => .error (.document error)
  | .ok outline =>
    match outline.toNode with
    | .error found => .error (.defect found)
    | .ok node => .ok node

end TreeCheck
