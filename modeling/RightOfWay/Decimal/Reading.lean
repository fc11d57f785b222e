/-!
# Reading a number

`Numeral.read?` splits the text of a number with optional decimal places and an optional exponent
into its parts, and `Numeral.toFloat` is the double nearest to the number.  A data format that
allows less, such as one that asks for digits on both sides of the point, checks that itself.
-/

set_option autoImplicit false

namespace RightOfWay

/-- The parts of a written number: its value is `digits · 10 ^ exponent`, negated if `negative`. -/
structure Numeral where
  negative : Bool
  digits : Nat
  exponent : Int
  deriving DecidableEq, Repr

namespace Numeral

/-- The value of a run of decimal digits. -/
def value (digits : List Char) : Nat :=
  digits.foldl (fun n c ↦ 10 * n + (c.toNat - '0'.toNat)) 0

/-- An exponent, that is an optional sign and at least one digit, and nothing after it. -/
def exponent? (cs : List Char) : Option Int :=
  let (negative, digits) := match cs with
    | '-' :: r => (true, r)
    | '+' :: r => (false, r)
    | r => (false, r)
  if digits ≠ [] ∧ digits.all Char.isDigit then
    some (if negative then -(value digits : Int) else value digits)
  else none

/-- A number without its sign: digits, optional decimal places, optional exponent.  There is a digit
before the point or after it. -/
def magnitude? (cs : List Char) : Option (Nat × Int) :=
  let whole := cs.takeWhile Char.isDigit
  let rest := cs.dropWhile Char.isDigit
  let (places, rest) := match rest with
    | '.' :: r => (r.takeWhile Char.isDigit, r.dropWhile Char.isDigit)
    | r => ([], r)
  if whole = [] ∧ places = [] then none
  else
    let digits := value (whole ++ places)
    match rest with
    | [] => some (digits, -(places.length : Int))
    | c :: r =>
      if c = 'e' ∨ c = 'E' then (exponent? r).map fun e ↦ (digits, e - places.length) else none

/-- A number with an optional minus sign. -/
def read? (cs : List Char) : Option Numeral :=
  match cs with
  | '-' :: r => (magnitude? r).map fun (digits, exponent) ↦ ⟨true, digits, exponent⟩
  | r => (magnitude? r).map fun (digits, exponent) ↦ ⟨false, digits, exponent⟩

/-- The double nearest to the magnitude.  Beyond the range of doubles the powers of ten need not be
computed: at four hundred digits before the point the result is infinite, and four hundred zeros
after it make it zero. -/
def magnitude (n : Numeral) : Float :=
  let size := (Nat.toDigits 10 n.digits).length + n.exponent
  if n.digits = 0 ∨ size < -400 then 0
  else if 400 < size then 1.0 / 0.0
  else if n.exponent < 0 then Float.ofScientific n.digits true (-n.exponent).toNat
  else Float.ofScientific n.digits false n.exponent.toNat

/-- The double nearest to the number; minus zero is kept apart from zero. -/
def toFloat (n : Numeral) : Float := if n.negative then -n.magnitude else n.magnitude

end Numeral
end RightOfWay
