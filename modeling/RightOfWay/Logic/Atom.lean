import RightOfWay.Logic.Term

/-!
# Ground atoms

An `Atom` is a predicate applied to ground terms, such as `arrivesAtForkAtTime(v_car7, f_north,
12)`.  Atoms are ordered by predicate and then by their terms from left to right, a list before its
continuations.  `renderFacts` writes atoms as program text, one fact a line.
-/

set_option autoImplicit false

namespace RightOfWay

/-- A predicate applied to ground terms. -/
structure Atom where
  predicate : String
  args : List Term
  deriving DecidableEq, Inhabited

namespace Atom

/-- The number of terms. -/
def arity (a : Atom) : Nat := a.args.length

/-- The terms in brackets, separated by a comma and a space; no brackets where there are none. -/
def render (a : Atom) : String :=
  if a.args.isEmpty then a.predicate
  else a.predicate ++ "(" ++ ", ".intercalate (a.args.map Term.render) ++ ")"

/-- The atom as a fact of a program. -/
def factLine (a : Atom) : String := a.render ++ "."

/-! ## Order -/

instance : Ord Atom := ⟨compareLex (compareOn Atom.predicate) (compareOn Atom.args)⟩

instance : Std.TransOrd Atom :=
  inferInstanceAs (Std.TransCmp (compareLex (compareOn Atom.predicate) (compareOn Atom.args)))

instance : Std.LawfulEqOrd Atom where
  eq_of_compare {a b} h := by
    obtain ⟨hp, ha⟩ := compareLex_eq_eq.1 h
    cases a; cases b
    cases Std.LawfulEqOrd.eq_of_compare (α := String) hp
    cases Std.LawfulEqOrd.eq_of_compare (α := List Term) ha
    rfl

end Atom

/-- Atoms as program text: each is a fact on a line of its own. -/
def renderFacts (atoms : List Atom) : String :=
  String.join (atoms.map fun a ↦ a.factLine ++ "\n")

end RightOfWay
