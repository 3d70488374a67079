import ChassisCooling.Text.Digit

/-! # Why the system refused an operation -/

namespace ChassisCooling

/-- The reason that the system gives for refusing an operation on a file, a socket or a program. -/
inductive Cause where
  | noEntry
  /-- What is named takes part in another use, as a directory named by a dot does. -/
  | busy
  | entryExists
  | notDirectory
  | isDirectory
  | invalidArgument
  | nameTooLong
  | tooManyLinks
  | brokenPipe
  | connectionRefused
  /-- A file that should hold text holds bytes that are not UTF-8. -/
  | notUtf8
  /-- A path too long for the name of a socket. -/
  | socketPathTooLong
  | other (text : String)
deriving DecidableEq, Repr

namespace Cause

/-- The number and the words that the system has for a reason. -/
def system? : Cause → Option (Nat × String)
  | noEntry => some (2, "No such file or directory")
  | busy => some (16, "Device or resource busy")
  | entryExists => some (17, "File exists")
  | notDirectory => some (20, "Not a directory")
  | isDirectory => some (21, "Is a directory")
  | invalidArgument => some (22, "Invalid argument")
  | brokenPipe => some (32, "Broken pipe")
  | nameTooLong => some (36, "File name too long")
  | tooManyLinks => some (40, "Too many levels of symbolic links")
  | connectionRefused => some (111, "Connection refused")
  | notUtf8 | socketPathTooLong | other _ => none

/-- The text of a reason. -/
def message (cause : Cause) : String :=
  match cause.system? with
  | some (number, words) => s!"{words} (os error {number})"
  | none => match cause with
    | other text => text
    | socketPathTooLong => "path must be shorter than SUN_LEN"
    | _ => "stream did not contain valid UTF-8"

end Cause

end ChassisCooling
