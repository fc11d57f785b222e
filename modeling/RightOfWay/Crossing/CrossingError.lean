import RightOfWay.Crossing.Vec
import RightOfWay.Decimal.Positional
import RightOfWay.Ident

/-!
# Errors about a crossing

What can be wrong with a change to a crossing.
-/

set_option autoImplicit false

namespace RightOfWay

/-- Why a crossing cannot be changed as asked. -/
inductive CrossingError where
  /-- The direction of the element with this constant is no direction in the plane. -/
  | degenerateDirection (element : String) (forward : Vec)
  | nonFinite (element : String)
  | duplicateElement (element : String)
  | unknownFork (fork : ForkId)
  | unknownExit (exit : ExitId)
  | notReachable (fork : ForkId) (exit : ExitId)
  /-- The lane that is to be opened bears the name of an open one between other places. -/
  | laneCollision (lane : LaneId) (fork : ForkId) (exit : ExitId) (takenFork : ForkId)
      (takenExit : ExitId)

/-- The wording of the error. -/
def CrossingError.message : CrossingError → String
  | degenerateDirection element v =>
    "degenerate forward direction for " ++ element ++ ": (" ++ floatText v.x ++ ", " ++
      floatText v.y ++ ", " ++ floatText v.z ++ ")"
  | nonFinite element => "non-finite coordinates for " ++ element
  | duplicateElement element => "duplicate element " ++ element
  | unknownFork fork => "unknown fork " ++ fork.text
  | unknownExit exit => "unknown exit " ++ exit.text
  | notReachable fork exit =>
    "exit " ++ exit.text ++ " is not reachable from fork " ++ fork.text
  | laneCollision lane fork exit takenFork takenExit =>
    "lane " ++ lane.text ++ " for " ++ fork.text ++ " -> " ++ exit.text ++
      " is already taken by " ++ takenFork.text ++ " -> " ++ takenExit.text

end RightOfWay
