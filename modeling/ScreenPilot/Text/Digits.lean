/-!
# Digits

The values of digits, and of runs of digits read as one number; and numbers of a
fixed width.
-/

set_option autoImplicit false

namespace ScreenPilot

namespace Text

/-- The value of a digit in a base of at most sixteen. -/
def digitValue? (base : Nat) (char : Char) : Option Nat :=
  let value :=
    if '0' ≤ char ∧ char ≤ '9' then char.toNat - '0'.toNat
    else if 'a' ≤ char ∧ char ≤ 'f' then char.toNat - 'a'.toNat + 10
    else if 'A' ≤ char ∧ char ≤ 'F' then char.toNat - 'A'.toNat + 10
    else 16
  if value < base then some value else none

/-- The number that digits make in a base of at most sixteen. -/
def numberOf? (base : Nat) (digits : List Char) : Option Nat :=
  digits.foldlM (fun number digit => (digitValue? base digit).map (base * number + ·)) 0

/-- The value of a decimal digit. -/
def decimalValue (digit : Char) : Nat := digit.toNat - '0'.toNat

/-- The number that decimal digits make. -/
def decimalNumber (digits : List Char) : Nat :=
  digits.foldl (fun number digit => 10 * number + decimalValue digit) 0

/-- A number with zeros in front up to a width. -/
def padded (width : Nat) (number : Nat) : String :=
  let digits := toString number
  String.ofList (List.replicate (width - digits.length) '0') ++ digits

end Text

end ScreenPilot
