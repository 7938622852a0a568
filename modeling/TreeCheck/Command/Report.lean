import TreeCheck.Project.Failure

/-!
# What a command reports

A command prints records on standard output and status lines beside them, and may fail.
-/

set_option autoImplicit false

namespace TreeCheck

structure Report where
  stdout : String := ""
  /-- The status messages, in order. -/
  status : List String := []
  failure : Option Failure := none

namespace Status

def checking (name directory : String) : String :=
  "Checking " ++ name ++ " (" ++ directory ++ ")"

def finished (count : Nat) : String :=
  "Finished " ++ toString count ++ " tree(s)"

def created (name : String) : List String :=
  ["Created Sema project '" ++ name ++ "'", "", "To get started:", "  sema check"]

end Status

end TreeCheck
