import RightOfWay.Arbitration.Controls
import RightOfWay.Logic.Model
import RightOfWay.Notice

/-!
# Acting on a model

A model tells some vehicles to stop and others to go.  `dispatch` passes these verdicts on to the
vehicles, those to stop first, and reports what became of each: a command that was accepted, or a
`Skip`.  A vehicle that is told both stops.
-/

set_option autoImplicit false

namespace RightOfWay

/-- The predicate of the vehicles that must stop. -/
def stopPredicate : String := "mustStopToYield"

/-- The predicate of the vehicles that may go. -/
def goPredicate : String := "hasRightOfWay"

/-- Why no command was issued for a verdict. -/
inductive Skip where
  /-- The vehicle has no handle. -/
  | unresolved (vehicle : VehicleId) (command : Command)
  /-- The vehicle refused the command. -/
  | refused (vehicle : VehicleId) (command : Command)
  /-- The verdict is about something that is no vehicle. -/
  | malformed (verdict : Atom)
  /-- The vehicle is to stop, whatever else the model says. -/
  | conflicting (vehicle : VehicleId)

/-- What is to be said about a skip. -/
def Skip.notice : Skip → Notice
  | unresolved .. => .noHandle
  | refused .. => .commandRefused
  | malformed _ => .malformedVerdict
  | conflicting _ => .conflictingVerdicts

/-- What became of the verdicts of a model. -/
structure Dispatch where
  /-- The accepted commands, from the first to the last. -/
  issued : List (VehicleId × Command)
  skipped : List Skip

namespace Dispatch

/-- There were no verdicts. -/
def none : Dispatch := ⟨[], []⟩

def isEmpty (d : Dispatch) : Bool := d.issued.isEmpty && d.skipped.isEmpty

/-- The command that was issued to the vehicle, if any; the last one counts. -/
def commandFor (d : Dispatch) (v : VehicleId) : Option Command :=
  (d.issued.reverse.find? (·.1 == v)).map (·.2)

/-- What is to be said about the skipped verdicts. -/
def notices (d : Dispatch) : List Notice := d.skipped.map Skip.notice

def addIssued (d : Dispatch) (v : VehicleId) (c : Command) : Dispatch :=
  { d with issued := d.issued ++ [(v, c)] }

def addSkip (d : Dispatch) (s : Skip) : Dispatch := { d with skipped := d.skipped ++ [s] }

end Dispatch

/-! ## Verdicts -/

/-- The vehicle that a verdict is about. -/
def subject? (verdict : Atom) : Option VehicleId :=
  match verdict.args with
  | .symbol constant :: _ => Ident.ofConstant? constant
  | _ => none

namespace Model

/-- The verdicts of one predicate, in order. -/
def verdicts (m : Model) (predicate : String) : List Atom := m.withPredicate predicate 1

/-- The vehicles that the verdicts of one predicate are about. -/
def subjects (m : Model) (predicate : String) : List VehicleId :=
  (m.verdicts predicate).filterMap subject?

/-- The verdicts of one predicate that are not about a vehicle. -/
def malformed (m : Model) (predicate : String) : List Atom :=
  (m.verdicts predicate).filter fun a ↦ (subject? a).isNone

/-- The vehicles that must stop. -/
def stopped (m : Model) : List VehicleId := m.subjects stopPredicate

/-- The commands that the verdicts ask for: those to stop, then those to go. -/
def plan (m : Model) : List (VehicleId × Command) :=
  m.stopped.map (·, .stop) ++ (m.subjects goPredicate).map (·, .go)

/-- The verdicts of both predicates that are not about a vehicle. -/
def malformedVerdicts (m : Model) : List Atom :=
  m.malformed stopPredicate ++ m.malformed goPredicate

end Model

/-! ## Dispatch -/

namespace Controls

/-- One planned command is offered to its vehicle, unless it says go and the vehicle must stop. -/
def carryOut (stopped : List VehicleId) (state : Dispatch × Controls)
    (order : VehicleId × Command) : Dispatch × Controls :=
  let (report, controls) := state
  let (vehicle, command) := order
  if command = .go ∧ vehicle ∈ stopped then (report.addSkip (.conflicting vehicle), controls)
  else
    match controls.takes? vehicle command with
    | none => (report.addSkip (.unresolved vehicle command), controls)
    | some true => (report.addIssued vehicle command, controls.offer vehicle command)
    | some false =>
      (report.addSkip (.refused vehicle command), controls.offer vehicle command)

/-- The verdicts of the model are passed on to the vehicles. -/
def dispatch (c : Controls) (m : Model) : Dispatch × Controls :=
  m.plan.foldl (carryOut m.stopped) (⟨[], m.malformedVerdicts.map .malformed⟩, c)

end Controls
end RightOfWay
