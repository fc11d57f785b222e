import RightOfWay.Decimal.Shortest

/-!
# Whole numbers below doubles

A double is rounded down in exact arithmetic on whole numbers.

* `Double.floor` and `Double.ceil` round a magnitude down and up (`Double.le_floor_iff`,
  `Double.ceil_le_iff`).
* `wholeBelow` rounds a double down to a number of sixty-four signed bits.
-/

set_option autoImplicit false

namespace RightOfWay

namespace Double

/-- The magnitude is the quotient of `numerator` and `denominator`. -/
def numerator (d : Double) : Nat := d.mantissa * Nat.pow 2 d.exponent.toNat

def denominator (d : Double) : Nat := Nat.pow 2 (-d.exponent).toNat

theorem denominator_pos (d : Double) : 0 < d.denominator := Nat.pow_pos (by decide)

/-- The largest whole number that is not above the magnitude. -/
def floor (d : Double) : Nat := d.numerator / d.denominator

theorem le_floor_iff {d : Double} {n : Nat} : n ≤ d.floor ↔ n * d.denominator ≤ d.numerator :=
  Nat.le_div_iff_mul_le d.denominator_pos

/-- The smallest whole number that is not below the magnitude. -/
def ceil (d : Double) : Nat := (d.numerator + d.denominator - 1) / d.denominator

theorem ceil_le_iff {d : Double} {n : Nat} : d.ceil ≤ n ↔ d.numerator ≤ n * d.denominator := by
  have hpos := d.denominator_pos
  rw [ceil, ← Nat.lt_succ_iff, Nat.div_lt_iff_lt_mul hpos, Nat.succ_mul]
  omega

end Double

/-- The largest whole number that is not above the double.  What is beyond the range of the numbers
becomes the nearer end of it, and what is not a number becomes zero. -/
def wholeBelow (x : Float) : Int64 :=
  if x.isNaN then 0
  else
    let magnitude := Double.ofBits x.toBits
    -- infinities have the magnitude that follows the largest finite one, far beyond the range
    if x.toBits >>> 63 = 1 then .ofIntClamp (-magnitude.ceil) else .ofIntClamp magnitude.floor

end RightOfWay
