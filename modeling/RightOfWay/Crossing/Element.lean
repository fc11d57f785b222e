import RightOfWay.Crossing.Bearing
import RightOfWay.Crossing.Shape
import RightOfWay.Ident

/-!
# Elements of a crossing

Vehicles come in at a `Fork`, leave at an `Exit`, and take a `Lane` in between.  A fork has a `Slot`
for each exit that can be reached from it, and the slot holds the lane while that is open.
-/

set_option autoImplicit false

namespace RightOfWay

/-- An exit that can be reached from a fork, with the lane to it while that is open. -/
structure Slot where
  exit : ExitId
  /-- Whether the lane is open. -/
  active : Bool
  lane? : Option LaneId
  deriving DecidableEq

namespace Slot

/-- The slot for an exit to which no lane is open. -/
def closed (exit : ExitId) : Slot := ⟨exit, false, none⟩

/-- The slot for an exit to which the lane is open. -/
def opened (exit : ExitId) (lane : LaneId) : Slot := ⟨exit, true, some lane⟩

end Slot

/-- A place where vehicles come in. -/
structure Fork where
  id : ForkId
  location : Vec
  /-- The direction of travel, a flat vector of length one. -/
  forward : Vec
  /-- The exits that can be reached, in the order in which they were connected. -/
  slots : List Slot

namespace Fork

/-- The slot for an exit. -/
def slot? (f : Fork) (exit : ExitId) : Option Slot := f.slots.find? (·.exit == exit)

/-- Those of the exits that cannot be reached. -/
def unconnected (f : Fork) (exits : List ExitId) : List ExitId :=
  exits.filter fun exit ↦ (f.slot? exit).isNone

/-- The fork with a slot for each of the exits. -/
def connect (f : Fork) (exits : List ExitId) : Fork :=
  { f with slots := f.slots ++ (f.unconnected exits).map Slot.closed }

/-- The fork with the slot in place of the one for the same exit. -/
def putSlot (f : Fork) (slot : Slot) : Fork :=
  { f with slots := f.slots.map fun s ↦ if s.exit = slot.exit then slot else s }

end Fork

/-- A place where vehicles leave. -/
structure Exit where
  id : ExitId
  location : Vec
  /-- The direction of travel, a flat vector of length one. -/
  forward : Vec

/-- An open way from a fork to an exit. -/
structure Lane where
  id : LaneId
  fork : ForkId
  exit : ExitId
  requiredSignal : Signal
  shape : Shape
  start : Vec
  finish : Vec

namespace Lane

/-- The lane from the fork to the exit. -/
def joining (f : Fork) (e : Exit) : Lane where
  id := .between f.id e.id
  fork := f.id
  exit := e.id
  requiredSignal := RightOfWay.requiredSignal f.forward e.forward
  shape := .classify f.location f.forward e.location e.forward
  start := f.location
  finish := e.location

end Lane

/-- The kinds of elements that a constant can name. -/
inductive ElementKind where
  | entry
  | exit
  | lane
  deriving DecidableEq

/-- The word for the kind. -/
def ElementKind.label : ElementKind → String
  | entry => "entry"
  | exit => "exit"
  | lane => "lane"

/-- An element of a crossing. -/
inductive Element where
  | entry (fork : Fork)
  | exit (exit : Exit)
  | lane (lane : Lane)

namespace Element

def kind : Element → ElementKind
  | entry _ => .entry
  | exit _ => .exit
  | lane _ => .lane

/-- The name of the element, without the initials of its role. -/
def name : Element → String
  | entry f => f.id.text
  | exit e => e.id.text
  | lane l => l.id.text

/-- The constant that stands for the element in rules. -/
def constant : Element → String
  | entry f => f.id.constant
  | exit e => e.id.constant
  | lane l => l.id.constant

end Element
end RightOfWay
