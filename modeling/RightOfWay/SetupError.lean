import RightOfWay.Crossing.CrossingError
import RightOfWay.FileError
import RightOfWay.InvalidValue

/-!
# Errors of setting up

What can be wrong with the files and settings that a monitor is built from.
-/

set_option autoImplicit false

namespace RightOfWay

/-- Why a monitor, or something that it is built from, could not be set up. -/
inductive SetupError where
  | crossing (error : CrossingError)
  | invalid (error : InvalidValue)
  | rulesUnreadable (path : String) (error : FileError)
  | unreadable (error : FileError)
  /-- A file is not written in YAML or does not have the entries that it should have. -/
  | malformed

namespace SetupError

/-- The wording of the error. -/
def message : SetupError → String
  | crossing error => "geometry error: " ++ error.message
  | invalid error => "validation error: " ++ error.message
  | rulesUnreadable path error =>
    "failed to read traffic rules from " ++ path ++ ": " ++ error.message
  | unreadable error => "I/O error: " ++ error.message
  | malformed => "YAML error"

/-- The wording of what is behind the error, if that is an error itself. -/
def cause? : SetupError → Option String
  | crossing error => some error.message
  | invalid error => some error.message
  | rulesUnreadable _ error => some error.message
  | unreadable error => some error.message
  | malformed => none

/-- The wording of the error and, behind that, of its cause. -/
def chain (e : SetupError) : String :=
  match e.cause? with
  | some cause => e.message ++ ": " ++ cause
  | none => e.message

end SetupError
end RightOfWay
