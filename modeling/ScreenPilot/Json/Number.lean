import ScreenPilot.Json.Value
import ScreenPilot.Text.Digits

/-!
# Numerals of a JSON text

A numeral without point and exponent that fits sixty-four bits is a whole
number; minus zero and every other numeral is a double. The double is computed
from the digits that fit an unsigned sixty-four bit significand: the significand
is rounded to a double and then scaled by a power of ten, with a rounding at
each step. A numeral whose double would be infinite is refused.
-/

set_option autoImplicit false

namespace ScreenPilot

namespace Json

/-- The parts of a numeral. -/
structure Numeral where
  negative : Bool
  /-- Digits before the point. -/
  whole : List Char
  /-- Digits after the point, if there is one. -/
  fraction : Option (List Char)
  /-- Whether the exponent is negative, and its digits, if there is one. -/
  exponent : Option (Bool × List Char)

namespace Numeral

/-- The digits at the head of a text, and what follows them. -/
def digits (text : List Char) : List Char × List Char :=
  (text.takeWhile Char.isDigit, text.dropWhile Char.isDigit)

/-- Splits the exponent off; a point and its digits have been read. -/
def withExponent (negative : Bool) (whole : List Char) (fraction : Option (List Char)) :
    List Char → Option Numeral
  | [] => some ⟨negative, whole, fraction, none⟩
  | mark :: rest =>
    if mark = 'e' ∨ mark = 'E' then
      let (down, rest) : Bool × List Char := match rest with
        | '-' :: rest => (true, rest)
        | '+' :: rest => (false, rest)
        | rest => (false, rest)
      match digits rest with
      | ([], _) => none
      | (power, []) => some ⟨negative, whole, fraction, some (down, power)⟩
      | _ => none
    else none

/-- The parts of a text that is one numeral: no digit stands after a leading
zero, and a point and an exponent mark are followed by a digit. -/
def ofText (text : List Char) : Option Numeral :=
  let (negative, text) : Bool × List Char := match text with
    | '-' :: rest => (true, rest)
    | rest => (false, rest)
  match digits text with
  | ([], _) => none
  | ('0' :: _ :: _, _) => none
  | (whole, '.' :: rest) =>
    match digits rest with
    | ([], _) => none
    | (fraction, rest) => withExponent negative whole (some fraction) rest
  | (whole, rest) => withExponent negative whole none rest

/-- A significand under construction: the digits taken so far, the power of ten
they are to be scaled by, and whether a digit has been left out. -/
structure Significand where
  value : Nat
  power : Int
  full : Bool

/-- The significand continued by one digit, if it still fits. -/
def Significand.extended? (significand : Significand) (digit : Char) : Option Nat :=
  let value := significand.value * 10 + Text.decimalValue digit
  if value < UInt64.size then some value else none

/-- Takes a digit before the point. Once one does not fit, the remaining ones
count as zeros. -/
def Significand.takeWhole (significand : Significand) (digit : Char) : Significand :=
  match significand.full, significand.extended? digit with
  | false, some value => { significand with value }
  | _, _ => { significand with power := significand.power + 1, full := true }

/-- Takes a digit after the point. Once one does not fit, the remaining ones
are left out. -/
def Significand.takeFraction (significand : Significand) (digit : Char) : Significand :=
  match significand.full, significand.extended? digit with
  | false, some value => ⟨value, significand.power - 1, false⟩
  | _, _ => { significand with full := true }

/-- A float scaled by a power of ten. Powers below the least tabulated one are
applied in steps, which end at zero; the count bounds the steps. -/
def scaled (number : Float) (power : Int) : Nat → Option Float
  | 0 => some number
  | steps + 1 =>
    if power.natAbs ≤ 308 then
      if 0 ≤ power then
        let product := number * Float.ofScientific 1 false power.natAbs
        if product.isInf then none else some product
      else some (number / Float.ofScientific 1 false power.natAbs)
    else if number == 0 then some number
    else if 0 ≤ power then none
    else scaled (number / Float.ofScientific 1 false 308) (power + 308) steps

/-- The double of a significand scaled by a power of ten. -/
def toDouble (negative : Bool) (significand : Nat) (power : Int) : Option Double :=
  (scaled (UInt64.ofNat significand).toFloat power 8).map fun number =>
    Double.ofFloat (if negative then -number else number)

/-- The value of a numeral, unless it is too large for a double. -/
def toJson (numeral : Numeral) : Option Json :=
  let whole := numeral.whole.foldl Significand.takeWhole ⟨0, 0, false⟩
  match numeral.fraction, numeral.exponent with
  | none, none =>
    if whole.full then (toDouble numeral.negative whole.value whole.power).map .float
    else if numeral.negative then
      if whole.value = 0 ∨ -whole.value < Int64.minValue.toInt then
        (toDouble true whole.value 0).map .float
      else some (.integer (-whole.value))
    else some (.integer whole.value)
  | fraction, exponent =>
    let digits := (fraction.getD []).foldl Significand.takeFraction { whole with full := false }
    match exponent with
    | none => (toDouble numeral.negative digits.value digits.power).map .float
    | some (down, power) =>
      let power := Text.decimalNumber power
      if power ≤ Int32.maxValue.toInt then
        let power := if down then digits.power - power else digits.power + power
        (toDouble numeral.negative digits.value power).map .float
      else if digits.value ≠ 0 ∧ ¬ down then none
      else (toDouble numeral.negative 0 0).map .float

end Numeral

end Json

end ScreenPilot
