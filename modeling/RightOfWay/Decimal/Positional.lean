import RightOfWay.Decimal.Shortest

/-!
# Numbers in messages

`Decimal.positional` writes a decimal out in full, without an exponent and without a point where
there are no decimal places.  `floatText` puts the sign and the two kinds of non-finite numbers
around it; zero keeps its sign.
-/

set_option autoImplicit false

namespace RightOfWay

namespace Decimal

/-- The decimal digits of a natural number, most significant first. -/
def digitsOf (n : Nat) : List Char := Nat.toDigits 10 n

/-- Trailing zeros behind the point carry nothing: `250 · 10 ^ -2` is `25 · 10 ^ -1`. -/
def dropZeros : (fuel : Nat) → Decimal → Decimal
  | 0, p => p
  | fuel + 1, p =>
    if p.exponent < 0 ∧ p.digits ≠ 0 ∧ p.digits % 10 = 0 then
      dropZeros fuel ⟨p.digits / 10, p.exponent + 1⟩
    else p

/-- The decimal written out in full: `12 · 10 ^ 3` is `12000` and `12 · 10 ^ -3` is `0.012`. -/
def positional (p : Decimal) : List Char :=
  let p := p.dropZeros (-p.exponent).toNat
  let digits := digitsOf p.digits
  let places := (-p.exponent).toNat
  if places = 0 then digits ++ List.replicate p.exponent.toNat '0'
  else
    let padded := List.replicate (places + 1 - digits.length) '0' ++ digits
    padded.take (padded.length - places) ++ '.' :: padded.drop (padded.length - places)

end Decimal

/-- A double as messages show it: the shortest digits that read back, written out in full. -/
def floatText (x : Float) : String :=
  if x.isNaN then "NaN"
  else
    let negative := x.toBits >>> 63 = 1
    let magnitude :=
      if x.isInf then "inf".toList else (Double.ofBits x.toBits).shortest.positional
    String.ofList (if negative then '-' :: magnitude else magnitude)

end RightOfWay
