import TreeCheck.Config.Basic
import TreeCheck.Fault
import TreeCheck.Outline.Load

/-!
# Why a command fails

A failure is shown as a chain of messages, from what was attempted to what went wrong. The causes
that lie within a tree are not part of the chain: they have a diagnosis of their own.
-/

set_option autoImplicit false

namespace TreeCheck

inductive Failure
  | loadTree (path : String) (cause : LoadError)
  | analysis (cause : Fault)
  | read (path : String) (cause : DiskFault)
  | parseConfig (cause : Toml.Error)
  | write (path : String) (cause : DiskFault)
  | create (path : String) (cause : DiskFault)
  /-- A project is to be made where there is one. -/
  | projectExists (directory : String)
  /-- There is no configuration in a directory or above it. -/
  | noConfig
  /-- The working directory belongs to no project that can be used. -/
  | outsideProject (cause : Failure)

namespace Failure

/-- The messages of a failure, from the attempt to the cause. -/
def chain : Failure → List String
  | .loadTree path _ => ["Failed to load " ++ path]
  | .analysis _ => ["Semantic analysis failed"]
  | .read path cause => ["Failed to read " ++ path, cause.message]
  | .parseConfig _ => ["Failed to parse " ++ Config.fileName, "TOML parse error"]
  | .write path cause => ["Failed to write " ++ path, cause.message]
  | .create path cause => ["Failed to create " ++ path, cause.message]
  | .projectExists directory => [Config.fileName ++ " already exists in " ++ directory]
  | .noConfig =>
    ["Could not find " ++ Config.fileName ++ " in current directory or any parent directory"]
  | .outsideProject cause => "Not in a Sema project directory" :: cause.chain

/-- The lines of a text, with `lead` before the first and `margin` before each of the others. -/
def hang (lead margin text : String) : List String :=
  match text.splitOn "\n" with
  | [] => []
  | first :: rest => (lead ++ first) :: rest.map (margin ++ ·)

def explain (code : Option String) (message : String) (help : Option String) : List String :=
  (match code with | some code => ["[" ++ code ++ "]"] | none => []) ++
    hang "  x " "  | " message ++
    (match help with | some help => hang "  help: " "        " help | none => [])

/-- The lines on a cause that the chain of messages leaves out. -/
def diagnosis : Failure → List String
  | .loadTree _ cause => explain cause.code cause.message none
  | .analysis cause => explain (some cause.code) cause.message cause.help
  | .parseConfig cause => explain none cause.message none
  | .outsideProject cause => cause.diagnosis
  | _ => []

/-- The chain of messages as a command line shows it: the first as it is, the causes indented, and
numbered when there are several. -/
def report (failure : Failure) : List String :=
  match failure.chain with
  | [] => []
  | [message] => hang "Error: " "" message
  | [message, cause] => hang "Error: " "" message ++ ["", "Caused by:"] ++ hang "    " "    " cause
  | message :: causes =>
    hang "Error: " "" message ++ ["", "Caused by:"] ++
      (causes.mapIdx fun index cause =>
        hang ("    " ++ toString index ++ ": ") "       " cause).flatten

end Failure

end TreeCheck
