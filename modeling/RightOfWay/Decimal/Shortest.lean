/-!
# The shortest decimal that reads back

A double is written in messages with the fewest digits that still read back as the same double.
This file finds those digits in exact arithmetic on natural numbers.

* `Double` is the magnitude of a finite double, `mantissa · 2 ^ exponent`, taken from its bits.
* `Double.Reads` says that a decimal lies in the interval of the reals that round to that magnitude.
* `Double.shortest` tries the grids of powers of ten from coarse to fine.  On each grid only the two
  neighbours of the magnitude can be nearest to it, and the first grid with a hit wins.
-/

set_option autoImplicit false

namespace RightOfWay

/-- A decimal number: `digits · 10 ^ exponent`. -/
structure Decimal where
  digits : Nat
  exponent : Int
  deriving DecidableEq, Repr

/-- The magnitude of a finite double: `mantissa · 2 ^ exponent`. -/
structure Double where
  mantissa : Nat
  exponent : Int
  /-- The next smaller double is nearer than the next larger one, as at most powers of two. -/
  atEdge : Bool
  deriving DecidableEq, Repr

namespace Double

/-- The magnitude that the bits of a finite double stand for; the sign bit is ignored. -/
def ofBits (bits : UInt64) : Double :=
  let fraction : Nat := bits.toNat % Nat.pow 2 52
  let scale : Nat := bits.toNat / Nat.pow 2 52 % Nat.pow 2 11
  if scale = 0 then ⟨fraction, -1074, false⟩
  else ⟨Nat.pow 2 52 + fraction, (scale : Int) - 1075, fraction = 0 && 1 < scale⟩

/-! ## Grids

The grid of a power of ten is its set of multiples.  Both the magnitude and its grid point are
brought to whole numbers: a magnitude of `n` quarters of `2 ^ exponent` is compared with `c` grid
steps as `n · quarterUnit` against `c · stepUnit`. -/

/-- The weight of a quarter of `2 ^ exponent` when compared on the grid of `10 ^ step`. -/
def quarterUnit (d : Double) (step : Int) : Nat :=
  Nat.pow 2 (d.exponent - 2).toNat * Nat.pow 10 (-step).toNat

/-- The weight of one step of the grid of `10 ^ step`. -/
def stepUnit (d : Double) (step : Int) : Nat :=
  Nat.pow 10 step.toNat * Nat.pow 2 (2 - d.exponent).toNat

/-- The grid point lies in the interval of the reals that round to the magnitude.  The ends of the
interval belong to it when the mantissa is even. -/
def Reads (d : Double) (p : Decimal) : Prop :=
  let low := (4 * d.mantissa - if d.atEdge then 1 else 2) * d.quarterUnit p.exponent
  let high := (4 * d.mantissa + 2) * d.quarterUnit p.exponent
  let point := p.digits * d.stepUnit p.exponent
  if d.mantissa % 2 = 0 then low ≤ point ∧ point ≤ high else low < point ∧ point < high

instance (d : Double) (p : Decimal) : Decidable (d.Reads p) := by
  unfold Reads; exact inferInstance

/-- The neighbour of the magnitude on the grid of `10 ^ step` that reads back, if there is one.  Of
two that do the nearer is taken, and the upper one of two equally near. -/
def onGrid (d : Double) (step : Int) : Option Decimal :=
  let value := 4 * d.mantissa * d.quarterUnit step
  let unit := d.stepUnit step
  let below : Decimal := ⟨value / unit, step⟩
  let above : Decimal := ⟨value / unit + 1, step⟩
  if d.Reads above ∧ (above.digits * unit - value ≤ value - below.digits * unit ∨ ¬ d.Reads below)
  then some above
  else if d.Reads below then some below
  else none

/-- The power of ten of the magnitude's leading digit. -/
def leadingStep (d : Double) : Int :=
  let reaches (step : Int) : Bool := d.stepUnit step ≤ 4 * d.mantissa * d.quarterUnit step
  ((List.range 634).map fun (k : Nat) ↦ (309 - k : Int)).find? reaches |>.getD (-324)

/-- The grids that give one to seventeen digits, from coarse to fine. -/
def grids (d : Double) : List Int :=
  (List.range 17).map fun (k : Nat) ↦ d.leadingStep - k

/-- The shortest decimal that reads back as the magnitude. -/
def shortest (d : Double) : Decimal :=
  if d.mantissa = 0 then ⟨0, 0⟩ else (d.grids.findSome? d.onGrid).getD ⟨0, 0⟩

end Double
end RightOfWay
