import RightOfWay.Crossing.CrossingError
import RightOfWay.Crossing.Element

/-!
# The topology of a crossing

A `Topology` holds the forks, exits and open lanes of a crossing, an index of their constants, and a
revision number that grows with every change.

* `addFork` and `addExit` register places, `connect` and `connectAll` make exits reachable, and
  `setLane` opens and closes lanes.
* `element?` finds an element by its constant.

An operation that fails changes nothing, and one that finds everything as asked leaves the revision
as it was.
-/

set_option autoImplicit false

namespace RightOfWay

/-- The elements of a crossing. -/
structure Topology where
  forks : Std.ExtTreeMap ForkId Fork
  exits : Std.ExtTreeMap ExitId Exit
  lanes : Std.ExtTreeMap LaneId Lane
  /-- The kind of element that each constant names. -/
  kinds : Std.ExtTreeMap String ElementKind
  /-- The number of changes so far. -/
  revision : Nat

/-- What comes of opening or closing a lane. -/
structure LaneChange where
  topology : Topology
  /-- The lane, if it is open now. -/
  lane? : Option LaneId
  notice? : Option Notice

namespace Topology

/-- No places at all. -/
def empty : Topology := ⟨∅, ∅, ∅, ∅, 0⟩

/-- Whether no place is registered. -/
def isEmpty (t : Topology) : Bool := t.forks.isEmpty && t.exits.isEmpty

/-- The flat direction of length one for a place, if its coordinates give one. -/
def direction (element : String) (location forward : Vec) : Except CrossingError Vec :=
  if !location.isFinite || !forward.isFinite then .error (.nonFinite element)
  else
    match forward.flatten.unit? with
    | some unit => .ok unit
    | none => .error (.degenerateDirection element forward)

/-- The topology with one more fork, from which no exit can be reached yet. -/
def addFork (t : Topology) (id : ForkId) (location forward : Vec) : Except CrossingError Topology :=
  if t.kinds.contains id.constant then .error (.duplicateElement id.constant)
  else
    (direction id.constant location forward).map fun forward ↦
      { t with
        forks := t.forks.insert id ⟨id, location, forward, []⟩
        kinds := t.kinds.insert id.constant .entry
        revision := t.revision + 1 }

/-- The topology with one more exit, which cannot be reached from anywhere yet. -/
def addExit (t : Topology) (id : ExitId) (location forward : Vec) : Except CrossingError Topology :=
  if t.kinds.contains id.constant then .error (.duplicateElement id.constant)
  else
    (direction id.constant location forward).map fun forward ↦
      { t with
        exits := t.exits.insert id ⟨id, location, forward⟩
        kinds := t.kinds.insert id.constant .exit
        revision := t.revision + 1 }

/-- The topology in which the exit can be reached from the fork. -/
def connect (t : Topology) (fork : ForkId) (exit : ExitId) : Except CrossingError Topology :=
  if !t.exits.contains exit then .error (.unknownExit exit)
  else
    match t.forks[fork]? with
    | none => .error (.unknownFork fork)
    | some f => .ok <|
      if (f.slot? exit).isSome then t
      else
        { t with
          forks := t.forks.insert fork (f.connect [exit])
          revision := t.revision + 1 }

/-- The topology in which every exit can be reached from every fork. -/
def connectAll (t : Topology) : Topology :=
  let exits := t.exits.keys
  { t with
    forks := t.forks.map fun _ f ↦ f.connect exits
    revision := t.revision + (t.forks.values.flatMap fun f ↦ f.unconnected exits).length }

/-- The topology with a lane opened. -/
def openLane (t : Topology) (f : Fork) (lane : Lane) : Topology :=
  { t with
    forks := t.forks.insert f.id (f.putSlot (.opened lane.exit lane.id))
    lanes := t.lanes.insert lane.id lane
    kinds := t.kinds.insert lane.id.constant .lane
    revision := t.revision + 1 }

/-- The topology with the lane to an exit closed. -/
def closeLane (t : Topology) (f : Fork) (exit : ExitId) (lane : LaneId) : Topology :=
  { t with
    forks := t.forks.insert f.id (f.putSlot (.closed exit))
    lanes := t.lanes.erase lane
    kinds := t.kinds.erase lane.constant
    revision := t.revision + 1 }

/-- The lane from the fork to the exit opened or closed.  Two lanes of one name cannot be open at a
time. -/
def setLane (t : Topology) (fork : ForkId) (exit : ExitId) (active : Bool) :
    Except CrossingError LaneChange :=
  match t.exits[exit]? with
  | none => .error (.unknownExit exit)
  | some e =>
    match t.forks[fork]? with
    | none => .error (.unknownFork fork)
    | some f =>
      match f.slot? exit with
      | none => .error (.notReachable fork exit)
      | some slot =>
        match active, slot.lane? with
        | true, some lane => .ok ⟨t, some lane, none⟩
        | false, none => .ok ⟨t, none, none⟩
        | false, some lane => .ok ⟨t.closeLane f exit lane, none, none⟩
        | true, none =>
          let lane := Lane.joining f e
          match t.lanes[lane.id]? with
          | some taken => .error (.laneCollision lane.id fork exit taken.fork taken.exit)
          | none => .ok ⟨t.openLane f lane, some lane.id, lane.shape.notice?⟩

/-- The element that a constant names. -/
def element? (t : Topology) (constant : String) : Option Element :=
  match t.kinds[constant]? with
  | none => none
  | some .entry => ((Ident.ofConstant? constant).bind t.forks.get?).map .entry
  | some .exit => ((Ident.ofConstant? constant).bind t.exits.get?).map .exit
  | some .lane => ((Ident.ofConstant? constant).bind t.lanes.get?).map .lane

end Topology
end RightOfWay
