import RightOfWay.InvalidValue
import RightOfWay.Oracle.Basic
import RightOfWay.Text.Quoted

/-!
# The advisor

An `Advisor` puts programs to an oracle, counts them, and hands on the outcomes in canonical form.
A breakdown of the oracle becomes a failure and leaves the advisor as usable as before.
-/

set_option autoImplicit false

namespace RightOfWay

/-- An oracle with the number of models to ask it for and the number of programs put to it. -/
structure Advisor where
  oracle : Oracle
  cap : Nat
  solves : Nat
  cap_pos : 0 < cap

namespace Advisor

/-- The advisor that has not asked anything.  It must ask for at least one model. -/
def make (oracle : Oracle) (cap : Nat) : Except InvalidValue Advisor :=
  if h : 0 < cap then .ok ⟨oracle, cap, 0, h⟩ else .error .modelCap

/-- The canonical outcome of a program. -/
def answer (a : Advisor) (program : Program) : Outcome :=
  (a.oracle.reply a.solves program a.cap).toOutcome.canonicalize a.cap

/-- The advisor after one more program. -/
def counted (a : Advisor) : Advisor := { a with solves := a.solves + 1 }

/-- The advisor in brief. -/
def describe (a : Advisor) : String :=
  "ReasoningAdapter \x7b oracle: " ++ Text.quote a.oracle.name ++
    ", max_models: " ++ toString a.cap ++ ", solves: " ++ toString a.solves ++ " \x7d"

end Advisor
end RightOfWay
