import RightOfWay.Crossing.Signal
import RightOfWay.Crossing.Vec

/-!
# Bearings

Who comes from whose right is read off the directions in which two forks lead into the crossing, and
the signal that a lane asks for off the directions at its ends.  The axes of the plane are those of
a screen: the second coordinate grows to the right of one who looks along the first.
-/

set_option autoImplicit false

namespace RightOfWay

/-- The side from which one stream of traffic comes, as seen from another. -/
inductive Bearing where
  | rightOf
  | leftOf
  | unrelated
  deriving DecidableEq

namespace Bearing

/-- The word for the bearing. -/
def label : Bearing → String
  | rightOf => "right_of"
  | leftOf => "left_of"
  | unrelated => "unrelated"

/-- The sine of the angle between two directions beyond which one counts as right of the other. -/
def threshold : Float := 0.5

end Bearing

/-- The side from which traffic in the direction `ego` comes, as seen by traffic in the direction
`other`. -/
def bearing (ego other : Vec) : Bearing :=
  let sine := ego.crossHeight other
  if sine > Bearing.threshold then .rightOf
  else if sine < -Bearing.threshold then .leftOf
  else .unrelated

/-- Whether traffic in the direction `ego` comes from the right of traffic in the direction
`other`. -/
def isOnRight (ego other : Vec) : Bool := bearing ego other == .rightOf

/-- The cosine of the angle up to which a lane counts as straight. -/
def straightCosine : Float := 0.866

/-- The signal for a lane that begins in one direction and ends in the other. -/
def requiredSignal (entry exit : Vec) : Signal :=
  if entry.planarCosine exit ≥ straightCosine then .off
  else if (entry.cross exit).z < 0 then .left
  else .right

end RightOfWay
