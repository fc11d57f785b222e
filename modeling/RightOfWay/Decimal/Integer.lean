import RightOfWay.Decimal.Reading

/-!
# Whole numbers of sixty-four bits

`int64?` is the signed number of a sign and a run of digits, unless it does not fit.  `natural?`
reads a run of digits in some base, and `digit?` a single one.
-/

set_option autoImplicit false

namespace RightOfWay

/-- The number, if sixty-four signed bits hold it. -/
def toInt64? (n : Int) : Option Int64 :=
  if Int64.minValue.toInt ≤ n ∧ n ≤ Int64.maxValue.toInt then some (Int64.ofInt n) else none

theorem toInt_of_toInt64? {n : Int} {i : Int64} (h : toInt64? n = some i) : i.toInt = n := by
  unfold toInt64? at h
  split at h
  · rename_i hn
    cases h
    exact Int64.toInt_ofInt_of_le hn.1 (Int.lt_add_one_of_le hn.2)
  · cases h

@[simp] theorem toInt64?_toInt (i : Int64) : toInt64? i.toInt = some i := by
  have low := Int64.minValue_le_toInt i
  have high := Int64.toInt_le i
  simp only [toInt64?, low, high, and_self, if_true, Int64.ofInt_toInt]

/-- The number written with a minus sign, if `negative`, and one or more decimal digits. -/
def int64? (negative : Bool) (digits : List Char) : Option Int64 :=
  if digits ≠ [] ∧ digits.all Char.isDigit then
    let n : Int := Numeral.value digits
    toInt64? (if negative then -n else n)
  else none

/-- The value of a digit of a base up to sixteen; letters of both cases count from ten. -/
def digit? (base : Nat) (c : Char) : Option Nat :=
  let n :=
    if c.isDigit then c.toNat - '0'.toNat
    else if 'a' ≤ c ∧ c ≤ 'f' then c.toNat - 'a'.toNat + 10
    else if 'A' ≤ c ∧ c ≤ 'F' then c.toNat - 'A'.toNat + 10
    else base
  if n < base then some n else none

/-- The natural number written with one or more digits of the base. -/
def natural? (base : Nat) (digits : List Char) : Option Nat :=
  if digits = [] then none
  else digits.foldlM (fun n c ↦ (digit? base c).map (base * n + ·)) 0

end RightOfWay
