import RightOfWay.Arbitration.Journal
import RightOfWay.Command.CommandError
import RightOfWay.Command.FileAccess
import RightOfWay.Crossing.LayoutText

/-!
# The command that compiles a layout

It prints the facts about the crossing that a layout file describes.
-/

set_option autoImplicit false

namespace RightOfWay

variable {m : Type → Type} [Monad m]

/-- The crossing in a layout file and the probe for its lanes. -/
def loadLayout (files : FileAccess m) (path : String) :
    m (Except CommandError (Topology × Probe)) := do
  match ← files.read path with
  | .error e => return .error (.layoutUnreadable path (.unreadable e))
  | .ok text =>
    match Layout.read? text with
    | none => return .error (.layoutUnreadable path .malformed)
    | some layout =>
      match layout.build? with
      | .error e => return .error (.layoutInvalid e)
      | .ok (topology, _) => return .ok (topology, layout.probe)

/-- The facts about the crossing in a layout file. -/
def showGeometry (files : FileAccess m) (path : String) :
    m (Except CommandError CommandResult) := do
  match ← loadLayout files path with
  | .error e => return .error e
  | .ok (topology, probe) =>
    return .ok ⟨0, Journal.geometryText (.compile topology probe)⟩

end RightOfWay
