import ScreenPilot.Calendar
import ScreenPilot.Toml.Text
import ScreenPilot.Toml.Value

/-!
# Numbers, dates and times of a TOML document

Digits may have single underscores between them. A whole number has sixty-four
bits with a sign and no needless zeros in front; a number with a point or an
exponent may be too small for a double, but not too large. A date exists in the
calendar, and a time of day may end in a leap second.
-/

set_option autoImplicit false

namespace ScreenPilot

namespace Toml

/-! ## Numbers -/

/-- Further digits of a number, with at most one underscore before each. -/
def moreDigits (base : Nat) : List Char → List Char × List Char
  | '_' :: digit :: rest =>
    if (Text.digitValue? base digit).isSome then
      let (digits, rest) := moreDigits base rest
      (digit :: digits, rest)
    else ([], '_' :: digit :: rest)
  | digit :: rest =>
    if (Text.digitValue? base digit).isSome then
      let (digits, rest) := moreDigits base rest
      (digit :: digits, rest)
    else ([], digit :: rest)
  | [] => ([], [])

/-- The digits of a number, at least one. -/
def digits (base : Nat) : List Char → Option (List Char × List Char)
  | digit :: rest =>
    if (Text.digitValue? base digit).isSome then
      let (more, rest) := moreDigits base rest
      some (digit :: more, rest)
    else none
  | [] => none

/-- The digits of a decimal number; a zero in front stands alone. -/
def decimalDigits : List Char → Option (List Char × List Char)
  | '0' :: rest => some (['0'], rest)
  | chars => digits 10 chars

/-- A sign at the front, and whether it is a minus. -/
def sign : List Char → Bool × List Char
  | '+' :: rest => (false, rest)
  | '-' :: rest => (true, rest)
  | chars => (false, chars)

/-- A whole number, if it fits sixty-four bits. -/
def wholeNumber (negative : Bool) (number : Nat) : Option Toml :=
  let value : Int := if negative then -number else number
  if Int64.minValue.toInt ≤ value ∧ value ≤ Int64.maxValue.toInt then some (.integer value)
  else none

/-- A number without sign in a base that is a power of two. -/
def inBase (base : Nat) (chars : List Char) : Option (Toml × List Char) := do
  let (digits, rest) ← digits base chars
  some (← wholeNumber false (← Text.numberOf? base digits), rest)

/-- A whole number. -/
def readInteger : List Char → Option (Toml × List Char)
  | '0' :: 'x' :: rest => inBase 16 rest
  | '0' :: 'o' :: rest => inBase 8 rest
  | '0' :: 'b' :: rest => inBase 2 rest
  | chars => do
    let (negative, rest) := sign chars
    let (digits, rest) ← decimalDigits rest
    some (← wholeNumber negative (← Text.numberOf? 10 digits), rest)

/-- The double nearest to `digits * 10 ^ power`. One that is too large is refused,
and one that is too small is minus infinity. -/
def nearestDouble (negative : Bool) (digits : Nat) (power : Int) : Option Double :=
  let size : Int := (Nat.toDigits 10 digits).length + power
  let magnitude : Float :=
    if digits = 0 ∨ size < -400 then 0
    else if 400 < size then 1 / 0
    else Float.ofScientific digits (power < 0) power.natAbs
  if magnitude.isInf ∧ ¬ negative then none
  else some (Double.ofFloat (if negative then -magnitude else magnitude))

/-- The digits behind a point. -/
def fraction : List Char → Option (List Char × List Char)
  | '.' :: rest => digits 10 rest
  | _ => none

/-- An exponent. -/
def exponent : List Char → Option (Int × List Char)
  | char :: rest =>
    if char = 'e' ∨ char = 'E' then do
      let (negative, rest) := sign rest
      let (digits, rest) ← digits 10 rest
      let number ← Text.numberOf? 10 digits
      some (if negative then -number else number, rest)
    else none
  | [] => none

/-- A number with a point, an exponent or both. -/
def readFloat (chars : List Char) : Option (Toml × List Char) := do
  let (negative, rest) := sign chars
  let (whole, rest) ← decimalDigits rest
  let point := fraction rest
  let (decimals, rest) := point.getD ([], rest)
  let scale := exponent rest
  let (power, rest) := scale.getD (0, rest)
  if point.isNone ∧ scale.isNone then none
  else
    let number ← Text.numberOf? 10 (whole ++ decimals)
    some (.float (← nearestDouble negative number (power - decimals.length)), rest)

/-- Infinity or the undefined number. -/
def readSpecial (chars : List Char) : Option (Toml × List Char) :=
  let (negative, rest) := sign chars
  let signed (number : Float) : Toml :=
    .float (Double.ofFloat (if negative then -number else number))
  match rest with
  | 'i' :: 'n' :: 'f' :: rest => some (signed (1 / 0), rest)
  | 'n' :: 'a' :: 'n' :: rest => some (signed (0 / 0), rest)
  | _ => none

/-! ## Dates and times -/

/-- A number of exactly `count` digits from `least` to `greatest`. -/
def fixedNumber (count least greatest : Nat) (chars : List Char) : Option (Nat × List Char) := do
  let digits := chars.take count
  if digits.length < count then none
  else
    let number ← Text.numberOf? 10 digits
    if least ≤ number ∧ number ≤ greatest then some (number, chars.drop count) else none

/-- What follows a character. -/
def expect (char : Char) : List Char → Option (List Char)
  | [] => none
  | first :: rest => if first = char then some rest else none

/-- What follows a date. -/
def afterDate (chars : List Char) : Option (List Char) := do
  let (year, rest) ← fixedNumber 4 0 9999 chars
  let (month, rest) ← fixedNumber 2 1 12 (← expect '-' rest)
  let (_, rest) ← fixedNumber 2 1 (CalendarDay.monthLength year month) (← expect '-' rest)
  some rest

/-- What follows a time of day. -/
def afterTime (chars : List Char) : Option (List Char) := do
  let (_, rest) ← fixedNumber 2 0 23 chars
  let (_, rest) ← fixedNumber 2 0 59 (← expect ':' rest)
  let (_, rest) ← fixedNumber 2 0 60 (← expect ':' rest)
  match rest with
  | '.' :: decimals =>
    match decimals.takeWhile Char.isDigit with
    | [] => some rest
    | _ => some (decimals.dropWhile Char.isDigit)
  | rest => some rest

/-- What follows the distance from universal time. -/
def afterOffset : List Char → Option (List Char)
  | [] => none
  | char :: rest =>
    if char = 'Z' ∨ char = 'z' then some rest
    else if char = '+' ∨ char = '-' then do
      let (_, rest) ← fixedNumber 2 0 23 rest
      let (_, rest) ← fixedNumber 2 0 59 (← expect ':' rest)
      some rest
    else none

/-- What follows a time of day behind a date. -/
def afterDateTime : List Char → Option (List Char)
  | [] => none
  | char :: rest =>
    if char = 'T' ∨ char = 't' ∨ char = ' ' then do
      let rest ← afterTime rest
      some ((afterOffset rest).getD rest)
    else none

/-- A date, a time of day, or a date with a time of day. -/
def readMoment (chars : List Char) : Option (Toml × List Char) := do
  let rest ←
    match afterDate chars with
    | some rest => some ((afterDateTime rest).getD rest)
    | none => afterTime chars
  some (.moment (String.ofList (chars.take (chars.length - rest.length))), rest)

/-! ## Scalars -/

/-- A truth value. -/
def readBool : List Char → Option (Toml × List Char)
  | 't' :: 'r' :: 'u' :: 'e' :: rest => some (.bool true, rest)
  | 'f' :: 'a' :: 'l' :: 's' :: 'e' :: rest => some (.bool false, rest)
  | _ => none

/-- A value that holds no other value. -/
def readScalar (chars : List Char) : Option (Toml × List Char) :=
  (readText chars).map (fun (text, rest) => (Toml.string text, rest))
    <|> readBool chars <|> readMoment chars <|> readFloat chars <|> readSpecial chars
    <|> readInteger chars

end Toml

end ScreenPilot
