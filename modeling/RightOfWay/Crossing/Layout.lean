import RightOfWay.Crossing.Overlap
import RightOfWay.Crossing.Topology

/-!
# Layouts

A `Layout` describes a crossing: its box, the places in and around it, the lanes that are open at
first, and how lanes overlap.

`Layout.build?` registers the places inside the box, makes every exit reachable from every fork, and
opens the lanes.  A lane that touches a place outside the box is left out; one that touches a place
that the layout does not describe is an error.
-/

set_option autoImplicit false

namespace RightOfWay

/-- A fork or an exit as a layout describes it. -/
structure Place (r : Role) where
  id : Ident r
  location : Vec
  forward : Vec

/-- Half the widths of the box around a crossing. -/
structure Extent where
  x : Float
  y : Float

/-- The description of a crossing. -/
structure Layout where
  center : Vec
  extent : Extent
  /-- The angle of the box in degrees. -/
  yaw : Float
  forks : List (Place .fork)
  exits : List (Place .exit)
  lanes : List (ForkId × ExitId)
  overlaps : List (LaneId × LaneId)
  /-- The half width of the lanes' corridors; if it is given, the declared overlaps do not count. -/
  corridorHalfWidth? : Option Float

namespace Layout

def standardExtent : Extent := ⟨1800, 1800⟩

/-- A box of the standard extent around the origin, with nothing in it. -/
def blank : Layout := ⟨.zero, standardExtent, 0, [], [], [], [], none⟩

/-- An angle of one degree. -/
def degree : Float := 3.141592653589793 / 180

/-- Whether a place is in the box. -/
def inRange (d : Layout) (location : Vec) : Bool :=
  let angle := d.yaw * degree
  let dx := location.x - d.center.x
  let dy := location.y - d.center.y
  let localX := dx * angle.cos + dy * angle.sin
  let localY := dy * angle.cos - dx * angle.sin
  localX.abs ≤ d.extent.x && localY.abs ≤ d.extent.y

/-- The forks in the box. -/
def forksInRange (d : Layout) : List (Place .fork) := d.forks.filter fun f ↦ d.inRange f.location

/-- The exits in the box. -/
def exitsInRange (d : Layout) : List (Place .exit) := d.exits.filter fun e ↦ d.inRange e.location

/-- The topology with the places inside the box, connected. -/
def places? (d : Layout) : Except CrossingError Topology := do
  let t ← d.forksInRange.foldlM (fun t f ↦ t.addFork f.id f.location f.forward) Topology.empty
  let t ← d.exitsInRange.foldlM (fun t e ↦ t.addExit e.id e.location e.forward) t
  return t.connectAll

/-- Whether the layout describes both ends of a lane. -/
def describes (d : Layout) (fork : ForkId) (exit : ExitId) : Bool :=
  d.forks.any (·.id == fork) && d.exits.any (·.id == exit)

/-- Whether both ends of a lane are registered. -/
def registered (t : Topology) (fork : ForkId) (exit : ExitId) : Bool :=
  t.forks.contains fork && t.exits.contains exit

/-- A crossing under construction, with what was odd about it. -/
abbrev Draft := Topology × List Notice

/-- The crossing with one more lane opened, unless one of its ends is outside the box. -/
def openLane? (d : Layout) (draft : Draft) (lane : ForkId × ExitId) : Except CrossingError Draft :=
  if !registered draft.1 lane.1 lane.2 && d.describes lane.1 lane.2 then .ok draft
  else
    (draft.1.setLane lane.1 lane.2 true).map fun change ↦
      (change.topology, draft.2 ++ change.notice?.toList)

/-- The crossing that the layout describes, with what is odd about it. -/
def build? (d : Layout) : Except CrossingError Draft := do
  d.lanes.foldlM d.openLane? (← d.places?, [])

/-- How lanes of the crossing overlap. -/
def probe (d : Layout) : Probe :=
  match d.corridorHalfWidth? with
  | some halfWidth => corridorProbe halfWidth
  | none => (DeclaredOverlaps.ofPairs d.overlaps).probe

end Layout
end RightOfWay
