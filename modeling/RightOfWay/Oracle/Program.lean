import RightOfWay.Digest.Fingerprint

/-!
# Programs

What an oracle is asked is a program text: facts about events, facts about the crossing, and traffic
rules, in this order.
-/

set_option autoImplicit false

namespace RightOfWay

/-- The text of a program. -/
structure Program where
  text : String
  deriving DecidableEq

namespace Program

/-- A section as it stands in a program: with a line end behind it if it has none.  An empty section
takes no line. -/
def closed (part : String) : String :=
  if part.toList = [] ∨ part.toList.getLast? = some '\n' then part else part ++ "\n"

/-- The program of these sections. -/
def assemble (events geometry rules : String) : Program :=
  ⟨closed events ++ closed geometry ++ closed rules⟩

/-- The hash that identifies the program. -/
def fingerprint (p : Program) : Fingerprint := .ofText p.text

theorem closed_eq_self {text : String} (h : text = "" ∨ text.toList.getLast? = some '\n') :
    closed text = text := by
  unfold closed
  rw [if_pos]
  rcases h with rfl | h
  · exact .inl rfl
  · exact .inr h

end Program
end RightOfWay
