import Std.Data.ExtTreeSet

/-!
# Ground terms

A `Term` is what a predicate is applied to in a fact: a whole number or a symbol.  A quoted string
is a symbol whose text keeps its quotes.

There are two orders on terms.  The one of this file, `compare`, sorts the answers: numbers first,
then symbols by their text.  Rules compare terms by an order of their own, which tells quoted
strings apart (see `Term.compareInRules`).
-/

set_option autoImplicit false

namespace RightOfWay

/-- A ground term. -/
inductive Term where
  | int (value : Int64)
  | symbol (text : String)
  deriving DecidableEq, Inhabited

namespace Term

/-- The term as it stands in program text. -/
def render : Term → String
  | int value => toString value.toInt
  | symbol text => text

/-! ## Order -/

/-- Numbers stand before symbols. -/
def rank : Term → Nat
  | int _ => 0
  | symbol _ => 1

/-- The number, and zero for a symbol. -/
def number : Term → Int64
  | int value => value
  | symbol _ => 0

/-- The text of a symbol, and nothing for a number. -/
def text : Term → String
  | int _ => ""
  | symbol text => text

/-- Numbers by value, then symbols by text. -/
instance : Ord Term :=
  ⟨compareLex (compareOn rank) (compareLex (compareOn number) (compareOn text))⟩

instance : Std.TransOrd Term := inferInstanceAs
  (Std.TransCmp (compareLex (compareOn rank) (compareLex (compareOn number) (compareOn text))))

instance : Std.LawfulEqOrd Term where
  eq_of_compare {a b} h := by
    obtain ⟨hrank, h⟩ := compareLex_eq_eq.1 h
    obtain ⟨hnumber, htext⟩ := compareLex_eq_eq.1 h
    have hrank := Std.LawfulEqOrd.eq_of_compare (α := Nat) hrank
    have hnumber := Std.LawfulEqOrd.eq_of_compare (α := Int64) hnumber
    have htext := Std.LawfulEqOrd.eq_of_compare (α := String) htext
    cases a <;> cases b <;> simp_all [rank, number, text]

end Term
end RightOfWay
