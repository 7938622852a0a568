import TreeCheck.Command.Check
import TreeCheck.Command.Init
import TreeCheck.Command.Line

/-!
# Running a command line

From the arguments of the program to its exit code and what it prints. The code is zero after
success, one after a failure and two for arguments that make no sense.
-/

set_option autoImplicit false

namespace TreeCheck.Command

variable {m : Type → Type} [Monad m] [Storage m]

structure Outcome where
  exitCode : Nat
  stdout : String := ""
  /-- The messages on the error stream. -/
  stderr : List String := []

/-- The outcome of a command: a failure is diagnosed and reported after the status messages. -/
def Outcome.ofReport (report : Report) : Outcome :=
  match report.failure with
  | none => ⟨0, report.stdout, report.status⟩
  | some failure => ⟨1, report.stdout, report.status ++ failure.diagnosis ++ failure.report⟩

def versionText (command : Option String) : String :=
  match command with
  | none => "sema 0.1.0\n"
  | some command => "sema-" ++ command ++ " 0.1.0\n"

def usage : List String :=
  ["Usage: sema [-v] check [TREES]...", "       sema [-v] init", "       sema --version"]

def run (arguments : List String) : m Outcome := do
  match Request.ofArguments arguments with
  | .check trees => return .ofReport (← check trees)
  | .init => return .ofReport (← init (← Storage.workingDirectory))
  | .version command => return ⟨0, versionText command, []⟩
  | .help => return ⟨0, String.join (usage.map (· ++ "\n")), []⟩
  | .invalid misuse => return ⟨2, "", misuse.message ++ "" :: usage⟩

end TreeCheck.Command
