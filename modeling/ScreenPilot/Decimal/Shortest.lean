import ScreenPilot.Decimal.Double

/-!
# The fewest digits that read back

Every finite double other than zero has a decimal of at most seventeen digits
that rounds to it. `Double.shortest` gives the digits and the power of ten of
the decimal with the fewest digits that does so, and among those the one
nearest to the double. All comparisons are between natural numbers.

The reals that round to a double form an interval around it. If a decimal grid
has a point in that interval, then one of the two grid points beside the double
is in it, so only these two are tried on each grid.
-/

set_option autoImplicit false

namespace ScreenPilot

/-- A positive decimal number `digits * 10 ^ power`. -/
structure Decimal where
  /-- The significant digits, read as one number. -/
  digits : Nat
  /-- The power of ten the digits are multiplied by. -/
  power : Int
deriving DecidableEq, Repr

namespace Decimal

/-- A positive fraction together with the bounds of the interval that rounds to
it, over one denominator. -/
structure Interval where
  lower : Nat
  centre : Nat
  upper : Nat
  denominator : Nat
  /-- The bounds themselves belong to the interval. -/
  closed : Bool

namespace Interval

/-- The interval around a double: half the gap to either neighbour, with its
ends when the significand is even. -/
def around (number : Double) : Interval :=
  let (significand, power) := number.magnitude
  let scale := Nat.pow 2 (power - 2).toNat
  { lower := (4 * significand - (if number.isUneven then 1 else 2)) * scale
    centre := 4 * significand * scale
    upper := (4 * significand + 2) * scale
    denominator := Nat.pow 2 (2 - power).toNat
    closed := significand % 2 == 0 }

/-- The greatest power of ten not above the centre. -/
def leadingPower (interval : Interval) : Int :=
  let whole := interval.centre / interval.denominator
  if whole = 0 then
    -((Nat.toDigits 10 ((interval.denominator - 1) / interval.centre)).length : Int)
  else ((Nat.toDigits 10 whole).length : Int) - 1

/-- Whether `digits * 10 ^ power` lies in the interval. -/
def contains (interval : Interval) (decimal : Decimal) : Bool :=
  let point := decimal.digits * Nat.pow 10 decimal.power.toNat * interval.denominator
  let unit := Nat.pow 10 (-decimal.power).toNat
  let low := interval.lower * unit
  let high := interval.upper * unit
  if interval.closed then low ≤ point && point ≤ high else low < point && point < high

/-- The decimal of the grid of step `10 ^ power` in the interval that is nearest
to the centre, if the grid has one; of two equally near ones the even one. -/
def onGrid (interval : Interval) (power : Int) : Option Decimal :=
  let numerator := interval.centre * Nat.pow 10 (-power).toNat
  let unit := interval.denominator * Nat.pow 10 power.toNat
  let below : Decimal := ⟨numerator / unit, power⟩
  let above : Decimal := ⟨numerator / unit + 1, power⟩
  let rest := 2 * (numerator % unit)
  let belowIsNearer := rest < unit || (rest == unit && below.digits % 2 == 0)
  let nearer := if belowIsNearer then below else above
  let farther := if belowIsNearer then above else below
  if interval.contains nearer then some nearer
  else if interval.contains farther then some farther
  else none

end Interval

/-- The same number without zeros at its end; the count bounds how many are
taken off. -/
def trimmed : Nat → Decimal → Decimal
  | 0, decimal => decimal
  | count + 1, decimal =>
    if decimal.digits % 10 = 0 then trimmed count ⟨decimal.digits / 10, decimal.power + 1⟩
    else decimal

end Decimal

/-- The shortest decimal that rounds to a finite double other than zero; the
sign is left out. -/
def Double.shortest (number : Double) : Decimal :=
  let interval := Decimal.Interval.around number
  let leading := interval.leadingPower
  let found := (List.range 17).findSome? fun (more : Nat) => interval.onGrid (leading - more)
  Decimal.trimmed 17 (found.getD ⟨0, 0⟩)

end ScreenPilot
