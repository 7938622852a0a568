/-!
# Faults of the file system

Why a file or directory cannot be read or made, with the wording and the number the operating system
gives.
-/

set_option autoImplicit false

namespace TreeCheck

inductive DiskFault
  | notFound
  | alreadyExists
  | notDirectory
  | isDirectory
  | nameTooLong
  /-- The path holds a NUL character. -/
  | nulInPath
  /-- The bytes of a file are no UTF-8 text. -/
  | notText
  /-- A directory cannot be made because nothing above it exists. -/
  | noRoot
  /-- Any other reason, in the words of the operating system. -/
  | other (message : String)
deriving DecidableEq, Repr

def DiskFault.message : DiskFault → String
  | .notFound => "No such file or directory (os error 2)"
  | .alreadyExists => "File exists (os error 17)"
  | .notDirectory => "Not a directory (os error 20)"
  | .isDirectory => "Is a directory (os error 21)"
  | .nameTooLong => "File name too long (os error 36)"
  | .nulInPath => "file name contained an unexpected NUL byte"
  | .notText => "stream did not contain valid UTF-8"
  | .noRoot => "failed to create whole tree"
  | .other message => message

end TreeCheck
