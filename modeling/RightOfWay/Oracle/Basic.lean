import RightOfWay.Oracle.Outcome
import RightOfWay.Oracle.Program

/-!
# Oracles

An `Oracle` answers programs.  It may answer one program in different ways, so its replies depend on
how many requests went before, and it may break down instead of giving an outcome.
-/

set_option autoImplicit false

namespace RightOfWay

/-- What comes back from an oracle. -/
inductive Reply where
  | outcome (outcome : Outcome)
  /-- The oracle broke down, perhaps with some last words. -/
  | crash (words : Option String)

/-- The outcome that a reply amounts to: a breakdown is a failure like any other. -/
def Reply.toOutcome : Reply → Outcome
  | outcome o => o
  | crash words => .failure (.crash words)

/-- Something that answers programs. -/
structure Oracle where
  name : String
  /-- The reply to a program when `request` others have been answered before.  No more models than
  the cap are of use. -/
  reply : (request : Nat) → Program → (cap : Nat) → Reply

end RightOfWay
