import RightOfWay.Clock
import RightOfWay.Crossing.Element
import RightOfWay.Logic.Atom

/-!
# Events

Vehicles report what they do at a crossing.  An `Event` becomes facts about its vehicle at a tick,
and it tells the `Phase` that the vehicle is in from then on.  Phases follow one another in some
order, and a step out of order is worth a notice but no obstacle.
-/

set_option autoImplicit false

namespace RightOfWay

/-- How far a vehicle has come. -/
inductive Phase where
  | arrived
  | entered
  | inLane
  | departed
  deriving DecidableEq

namespace Phase

/-- The word for the phase. -/
def label : Phase → String
  | arrived => "arrived"
  | entered => "entered"
  | inLane => "in_lane"
  | departed => "departed"

/-- Whether a vehicle that was in the first phase, if in any, may well be in the second one next. -/
def expected : Option Phase → Phase → Bool
  | none, arrived => true
  | some arrived, entered => true
  | some entered, inLane => true
  | some inLane, entered => true
  | some inLane, inLane => true
  | _, departed => true
  | _, _ => false

end Phase

/-- What a vehicle reports. -/
inductive Event where
  | arrival (vehicle : VehicleId) (fork : ForkId) (time : Float) (signal? : Option Signal)
  | entrance (vehicle : VehicleId) (fork : ForkId) (time : Float)
  | enterLane (vehicle : VehicleId) (lane : LaneId) (time : Float)
  | exitLane (vehicle : VehicleId) (lane : LaneId) (time : Float)
  | departure (vehicle : VehicleId)

namespace Event

/-- The word for the kind of event. -/
def kind : Event → String
  | arrival .. => "arrival"
  | entrance .. => "entrance"
  | enterLane .. => "enter_lane"
  | exitLane .. => "exit_lane"
  | departure _ => "exit_intersection"

def vehicle : Event → VehicleId
  | arrival v _ _ _ => v
  | entrance v _ _ => v
  | enterLane v _ _ => v
  | exitLane v _ _ => v
  | departure v => v

/-- When it happened; a departure does not say. -/
def time? : Event → Option Float
  | arrival _ _ t _ => some t
  | entrance _ _ t => some t
  | enterLane _ _ t => some t
  | exitLane _ _ t => some t
  | departure _ => none

/-- The constant of the element that the event names, and the kind of element that it must be. -/
def element? : Event → Option (String × ElementKind)
  | arrival _ f _ _ => some (f.constant, .entry)
  | entrance _ f _ => some (f.constant, .entry)
  | enterLane _ l _ => some (l.constant, .lane)
  | exitLane _ l _ => some (l.constant, .lane)
  | departure _ => none

/-- The phase that the vehicle is in from then on. -/
def phase : Event → Phase
  | arrival .. => .arrived
  | entrance .. => .entered
  | enterLane .. => .inLane
  | exitLane .. => .entered
  | departure _ => .departed

/-- Whether the vehicle leaves the crossing. -/
def isDeparture : Event → Bool
  | departure _ => true
  | _ => false

/-- The tick that the event falls into. -/
def tick (e : Event) (r : Resolution) : Tick := r.tick (e.time?.getD 0)

/-- A fact about a vehicle: a predicate, the vehicle, further constants and the tick. -/
def fact (predicate : String) (vehicle : VehicleId) (constants : List String) (tick : Tick) :
    Atom :=
  ⟨predicate, .symbol vehicle.constant :: constants.map .symbol ++ [.int tick]⟩

/-- The facts that the event makes true at the tick. -/
def facts (e : Event) (tick : Tick) : List Atom :=
  match e with
  | arrival v f _ signal? =>
    fact "arrivesAtForkAtTime" v [f.constant] tick ::
      signal?.toList.map fun s ↦ fact "signalsAtForkAtTime" v [s.constant, f.constant] tick
  | entrance v f _ => [fact "entersForkAtTime" v [f.constant] tick]
  | enterLane v l _ => [fact "entersLaneAtTime" v [l.constant] tick]
  | exitLane v l _ => [fact "leavesLaneAtTime" v [l.constant] tick]
  | departure _ => []

/-- Every fact is about the vehicle of the event. -/
theorem head?_args_of_mem_facts {e : Event} {tick : Tick} {a : Atom} (h : a ∈ e.facts tick) :
    a.args.head? = some (.symbol e.vehicle.constant) := by
  cases e with
  | arrival v f t signal? =>
    simp only [facts, List.mem_cons, List.mem_map] at h
    rcases h with rfl | ⟨s, _, rfl⟩ <;> rfl
  | entrance v f t | enterLane v l t | exitLane v l t =>
    simp only [facts, List.mem_singleton] at h
    subst h
    rfl
  | departure v => simp [facts] at h

end Event
end RightOfWay
