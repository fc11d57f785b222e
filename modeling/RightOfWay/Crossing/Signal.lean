/-!
# Turn signals
-/

set_option autoImplicit false

namespace RightOfWay

/-- What the indicators of a vehicle show. -/
inductive Signal where
  | off
  | right
  | left
  | emergency
  deriving DecidableEq, Repr

namespace Signal

/-- The constant for the signal in rules. -/
def constant : Signal → String
  | off => "off"
  | right => "right"
  | left => "left"
  | emergency => "emergency"

def all : List Signal := [off, right, left, emergency]

/-- The signal that a constant stands for. -/
def ofConstant? (text : String) : Option Signal := all.find? fun s ↦ s.constant == text

@[simp] theorem ofConstant?_constant (s : Signal) : ofConstant? s.constant = some s := by
  cases s <;> decide

end Signal
end RightOfWay
