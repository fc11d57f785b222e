import RightOfWay.Crossing.Vec
import RightOfWay.Notice

/-!
# Shapes of lanes

A lane is drawn as one smooth curve where the lines along its two ends allow that.
-/

set_option autoImplicit false

namespace RightOfWay

/-- How a lane can be drawn. -/
inductive Shape where
  | smooth
  | uTurn
  | needsInflection
  deriving DecidableEq

namespace Shape

/-- The word for the shape. -/
def label : Shape → String
  | smooth => "smooth"
  | uTurn => "u_turn"
  | needsInflection => "needs_inflection"

/-- What is to be said about a lane of the shape. -/
def notice? : Shape → Option Notice
  | smooth => none
  | uTurn => some .laneNeedsUTurn
  | needsInflection => some .laneNeedsInflection

/-- The cosine of the angle beyond which a lane turns back. -/
def uTurnCosine : Float := -0.8

/-- The shape of the lane between two places with the directions there.  A curve is smooth if the
lines through its ends meet ahead of the one and behind the other; a straight lane has no such point
and is smooth too. -/
def classify (entry entryForward exit exitForward : Vec) : Shape :=
  if entryForward.planarCosine exitForward < uTurnCosine then uTurn
  else
    let delta := exit - entry
    let turn := entryForward.crossHeight exitForward
    let fromEntry := entryForward.crossHeight delta
    let fromExit := exitForward.crossHeight delta
    if fromEntry * turn > 0 && fromExit * turn < 0 then smooth
    else if turn.abs ≤ epsilon && fromEntry.abs ≤ epsilon then smooth
    else needsInflection

end Shape
end RightOfWay
