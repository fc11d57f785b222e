import RightOfWay.Decimal.Floor
import RightOfWay.InvalidValue

/-!
# Ticks

Rules compare times as whole numbers.  A `Resolution` is the width of a tick in seconds, and
`Resolution.tick` is the number of the tick that a time falls into, so that events close enough to
each other count as simultaneous.
-/

set_option autoImplicit false

namespace RightOfWay

/-- The number of a time window. -/
abbrev Tick := Int64

/-- The width of a tick in seconds. -/
structure Resolution where
  seconds : Float

namespace Resolution

/-- Half a second. -/
def standard : Resolution := ⟨0.5⟩

/-- The resolution of this width, which must be finite and above zero. -/
def make (seconds : Float) : Except InvalidValue Resolution :=
  if seconds.isFinite && !(seconds ≤ 0) then .ok ⟨seconds⟩ else .error (.resolution seconds)

/-- The window that the time falls into, its lower bound included.  Times beyond the range of ticks
fall into the first or the last one, and a time that is not a number into window zero. -/
def tick (r : Resolution) (time : Float) : Tick := wholeBelow (time / r.seconds)

example : standard.tick 1.05 = 2 ∧ standard.tick 1.45 = 2 ∧ standard.tick 1.55 = 3 := by
  decide +kernel

end Resolution
end RightOfWay
