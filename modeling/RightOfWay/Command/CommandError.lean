import RightOfWay.SetupError

/-!
# Errors of the commands

Why a command could not do its work.  Each error names the file that is to blame and carries its
cause.
-/

set_option autoImplicit false

namespace RightOfWay

/-- Why a command failed. -/
inductive CommandError where
  | rulesUnreadable (path : String) (cause : FileError)
  | layoutUnreadable (path : String) (cause : SetupError)
  | layoutInvalid (cause : CrossingError)
  | settingsUnusable (path : String) (cause : SetupError)
  | notInitialized (cause : SetupError)
  | eventsUnreadable (path : String) (cause : FileError)
  /-- The file holds no list of events. -/
  | eventsMalformed (path : String)

/-- The wording of the error and of all that is behind it. -/
def CommandError.chain : CommandError → String
  | rulesUnreadable path cause => "failed to read rules " ++ path ++ ": " ++ cause.message
  | layoutUnreadable path cause => "failed to load intersection " ++ path ++ ": " ++ cause.chain
  | layoutInvalid cause =>
    "invalid intersection description: " ++ (SetupError.crossing cause).chain
  | settingsUnusable path cause => "failed to load configuration " ++ path ++ ": " ++ cause.chain
  | notInitialized cause => "failed to initialize monitor: " ++ cause.chain
  | eventsUnreadable path cause => "failed to read events " ++ path ++ ": " ++ cause.message
  | eventsMalformed path => "malformed events " ++ path

/-- What a command prints, and its exit code. -/
structure CommandResult where
  code : Nat
  output : String

end RightOfWay
