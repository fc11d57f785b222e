import Std.Data.ExtTreeSet
import RightOfWay.Crossing.Element

/-!
# Overlapping lanes

Vehicles on overlapping lanes are in each other's way.  A `Probe` tells which lanes overlap.  There
are two of them: one looks a pair of lanes up among the `DeclaredOverlaps`, whichever of the two
comes first, and the other gives every lane a corridor of some width and asks whether the corridors
touch.
-/

set_option autoImplicit false

namespace RightOfWay

/-- Tells whether two lanes overlap. -/
abbrev Probe := Lane → Lane → Bool

/-! ## Declared overlaps -/

/-- The pairs of lanes that are declared to overlap, each with the lesser lane first. -/
structure DeclaredOverlaps where
  pairs : Std.ExtTreeSet (LaneId × LaneId) (compareLex (compareOn Prod.fst) (compareOn Prod.snd))

namespace DeclaredOverlaps

/-- No declarations. -/
def empty : DeclaredOverlaps := ⟨∅⟩

/-- The two lanes, the lesser one first. -/
def sortPair (a b : LaneId) : LaneId × LaneId := if (compare a b).isLE then (a, b) else (b, a)

theorem sortPair_comm (a b : LaneId) : sortPair a b = sortPair b a := by
  unfold sortPair
  cases hab : compare a b
  · simp [Std.OrientedCmp.gt_of_lt hab]
  · cases Std.LawfulEqOrd.eq_of_compare hab
    simp
  · simp [Std.OrientedCmp.lt_of_gt hab]

/-- One more pair of overlapping lanes. -/
def declare (d : DeclaredOverlaps) (a b : LaneId) : DeclaredOverlaps :=
  ⟨d.pairs.insert (sortPair a b)⟩

/-- The declarations in a list of pairs. -/
def ofPairs (pairs : List (LaneId × LaneId)) : DeclaredOverlaps :=
  pairs.foldl (fun d (a, b) ↦ d.declare a b) empty

/-- Lanes overlap if they have been declared to. -/
def probe (d : DeclaredOverlaps) : Probe := fun a b ↦ d.pairs.contains (sortPair a.id b.id)

theorem probe_comm (d : DeclaredOverlaps) (a b : Lane) : d.probe a b = d.probe b a := by
  simp only [probe, sortPair_comm]

end DeclaredOverlaps

/-! ## Corridors -/

/-- A straight stretch of way. -/
structure Segment where
  start : Vec
  finish : Vec

namespace Segment

/-- The way from one end to the other. -/
def way (s : Segment) : Vec := s.finish - s.start

/-- Whether the two stretches cross between their ends. -/
def crosses (a b : Segment) : Bool :=
  let startOfB := a.way.crossHeight (b.start - a.start)
  let finishOfB := a.way.crossHeight (b.finish - a.start)
  let startOfA := b.way.crossHeight (a.start - b.start)
  let finishOfA := b.way.crossHeight (a.finish - b.start)
  startOfB * finishOfB < 0 && startOfA * finishOfA < 0

/-- The number brought to the range from zero to one; what is not a number stays as it is. -/
def clampUnit (t : Float) : Float := if t < 0 then 0 else if t > 1 then 1 else t

/-- The distance of a point from the stretch. -/
def distanceTo (s : Segment) (p : Vec) : Float :=
  let lengthSquared := s.way.dot s.way
  if lengthSquared ≤ epsilon then (p - s.start).length
  else
    let t := clampUnit ((p - s.start).dot s.way / lengthSquared)
    (p - (s.start + s.way.scale t)).length

/-- The lesser of two numbers; what is not a number gives way to the other. -/
def lesser (a b : Float) : Float := if a.isNaN then b else if b < a then b else a

/-- The distance between the two stretches. -/
def distance (a b : Segment) : Float :=
  if a.crosses b then 0
  else
    lesser (lesser (lesser (b.distanceTo a.start) (b.distanceTo a.finish)) (a.distanceTo b.start))
      (a.distanceTo b.finish)

end Segment

namespace Lane

/-- The straight stretch between the ends of the lane, seen from above. -/
def segment (l : Lane) : Segment := ⟨l.start.flatten, l.finish.flatten⟩

end Lane

/-- Lanes overlap if the corridors of this half width around them touch. -/
def corridorProbe (halfWidth : Float) : Probe := fun a b ↦
  a.segment.distance b.segment ≤ 2 * halfWidth.abs

end RightOfWay
