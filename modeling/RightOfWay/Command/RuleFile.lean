import RightOfWay.Command.CheckRules
import RightOfWay.Command.CommandError
import RightOfWay.Command.FileAccess

/-!
# The command that checks a rule file
-/

set_option autoImplicit false

namespace RightOfWay

variable {m : Type → Type} [Monad m]

/-- The finding about the rules in a file. -/
def checkRuleFile (files : FileAccess m) (path : String) :
    m (Except CommandError CommandResult) := do
  match ← files.read path with
  | .error e => return .error (.rulesUnreadable path e)
  | .ok text =>
    let check := checkRules text
    return .ok ⟨check.exitCode, path ++ ": " ++ check.message ++ "\n"⟩

end RightOfWay
