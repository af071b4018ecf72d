import ScreenPilot.Decimal.Shortest

/-!
# Floating-point numbers as text

A number with a point is written with the fewest digits that read back. It is
written positionally, always with a point, while that takes at most sixteen
digits before the point or four zeros after it, and otherwise with an exponent,
which always has a sign.
-/

set_option autoImplicit false

namespace ScreenPilot

/-- Where positional notation ends. -/
structure DecimalLayout where
  /-- Most digits written before the point. -/
  mostWhole : Int
  /-- Most zeros written between the point and the first digit. -/
  mostZeros : Int

namespace DecimalLayout

/-- Up to sixteen digits stand before the point and up to four zeros after it. -/
def standard : DecimalLayout := ⟨16, 4⟩

/-- A decimal number as text. -/
def render (layout : DecimalLayout) (decimal : Decimal) : String :=
  let digits := Nat.toDigits 10 decimal.digits
  let count : Int := digits.length
  let point := count + decimal.power
  let zeros (amount : Int) : List Char := List.replicate amount.toNat '0'
  let text :=
    if 0 ≤ decimal.power ∧ point ≤ layout.mostWhole then
      digits ++ zeros decimal.power ++ ['.', '0']
    else if 0 < point ∧ point ≤ layout.mostWhole then
      digits.take point.toNat ++ '.' :: digits.drop point.toNat
    else if point ≤ 0 ∧ -point ≤ layout.mostZeros then
      ['0', '.'] ++ zeros (-point) ++ digits
    else
      let power := point - 1
      let exponent := (if 0 ≤ power then "+" else "") ++ toString power
      match digits with
      | [] => []
      | [only] => only :: 'e' :: exponent.toList
      | first :: others => first :: '.' :: others ++ 'e' :: exponent.toList
  String.ofList text

end DecimalLayout

/-- The text of a finite double. -/
def Double.text (number : Double) : String :=
  let sign := if number.isNegative then "-" else ""
  if number.magnitude.1 = 0 then sign ++ "0.0"
  else sign ++ DecimalLayout.standard.render number.shortest

end ScreenPilot
