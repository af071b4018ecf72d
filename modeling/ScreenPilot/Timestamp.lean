import ScreenPilot.Calendar
import ScreenPilot.Json.Decode
import ScreenPilot.Text.Digits

/-!
# Moments in time

A moment is counted in seconds from the start of 1970 in universal time, with
nanoseconds within the second; in a leap second the nanoseconds run on past a
thousand million. Moments are written in the format of RFC 3339 with the zone
`Z`, and read from that format with any offset and with blanks between the
parts of a date or a time.
-/

set_option autoImplicit false

namespace ScreenPilot

/-- A moment in universal time. -/
structure Timestamp where
  /-- Seconds since the start of 1970. -/
  seconds : Int
  /-- Nanoseconds within the second. -/
  nanos : Nat
deriving DecidableEq, Inhabited

namespace Timestamp

/-! ## Writing -/

/-- The fraction of a second in groups of three digits, as few as hold it. -/
def fractionText (nanos : Nat) : String :=
  if nanos = 0 then ""
  else if nanos % 1000000 = 0 then "." ++ Text.padded 3 (nanos / 1000000)
  else if nanos % 1000 = 0 then "." ++ Text.padded 6 (nanos / 1000)
  else "." ++ Text.padded 9 nanos

/-- The text of a moment. -/
def text (moment : Timestamp) : String :=
  let date := CalendarDay.ofDays (moment.seconds / 86400)
  let second := (moment.seconds % 86400).toNat
  let leap := moment.nanos / 1000000000
  date.text ++ "T" ++ Text.padded 2 (second / 3600) ++ ":" ++ Text.padded 2 (second / 60 % 60) ++ ":"
    ++ Text.padded 2 (second % 60 + leap) ++ fractionText (moment.nanos % 1000000000) ++ "Z"

def toJson (moment : Timestamp) : Json := .string moment.text

/-! ## Reading -/

/-- Why a text is no moment. -/
inductive Fault where
  | outOfRange
  | invalid
  | tooShort
  | tooLong
  /-- The moment exists where it was written, but not in universal time. -/
  | impossible

/-- The wording of a fault. -/
def Fault.message : Fault → String
  | .outOfRange => "input is out of range"
  | .invalid => "input contains invalid characters"
  | .tooShort => "premature end of input"
  | .tooLong => "trailing input"
  | .impossible => "no possible date and time matching input"

/-- Blanks that may stand between parts. -/
def isBlank (char : Char) : Bool :=
  let code := char.toNat
  (9 ≤ code && code ≤ 13) || (0x2000 ≤ code && code ≤ 0x200a) ||
    code ∈ [0x20, 0x85, 0xa0, 0x1680, 0x2028, 0x2029, 0x202f, 0x205f, 0x3000]

/-- The text from its first character that is no blank. -/
def skipBlanks (text : List Char) : List Char := text.dropWhile isBlank

/-- A number of at most so many digits, and the rest of the text. -/
def number (most : Nat) (text : List Char) : Except Fault (Nat × List Char) :=
  let digits := (text.takeWhile Char.isDigit).take most
  match text, digits with
  | [], _ => .error .tooShort
  | _, [] => .error .invalid
  | _, digits =>
    let value := Text.decimalNumber digits
    if value ≤ Int64.maxValue.toInt then .ok (value, text.drop digits.length) else .error .outOfRange

/-- A number of at most two digits in a range, after blanks. -/
def field (least greatest : Nat) (text : List Char) : Except Fault (Nat × List Char) := do
  let (value, rest) ← number 2 (skipBlanks text)
  if least ≤ value ∧ value ≤ greatest then pure (value, rest) else throw .outOfRange

/-- A year of at most four digits, or of any number of digits after a sign. -/
def year (text : List Char) : Except Fault (Int × List Char) := do
  let (value, rest) ← match skipBlanks text with
    | '-' :: rest => (number rest.length rest).map fun (value, rest) => (-(value : Int), rest)
    | '+' :: rest => (number rest.length rest).map fun (value, rest) => ((value : Int), rest)
    | rest => (number 4 rest).map fun (value, rest) => ((value : Int), rest)
  if Int32.minValue.toInt ≤ value ∧ value ≤ Int32.maxValue.toInt then pure (value, rest) else throw .outOfRange

/-- A sign that has to stand here, after blanks. -/
def sign (char : Char) (text : List Char) : Except Fault (List Char) :=
  match skipBlanks text with
  | [] => .error .tooShort
  | first :: rest => if first = char then .ok rest else .error .invalid

/-- The fraction of a second, if there is one; digits after the ninth do not count. -/
def fraction (text : List Char) : Except Fault (Nat × List Char) :=
  match text with
  | '.' :: rest => do
    let (value, after) ← number 9 rest
    let scale := Nat.pow 10 (9 - (rest.length - after.length))
    pure (value * scale, after.dropWhile Char.isDigit)
  | _ => .ok (0, text)

/-- Two characters as a number, if they are digits. -/
def pair : List Char → Option Nat
  | first :: second :: _ =>
    if first.isDigit ∧ second.isDigit then
      some (Text.decimalNumber [first, second])
    else none
  | _ => none

/-- The text is shorter than two digits; length is counted in bytes. -/
def isTooShort (text : List Char) : Bool := (String.ofList text).utf8ByteSize < 2

/-- The offset of a zone from universal time, in seconds. -/
def offset (text : List Char) : Except Fault (Int × List Char) := do
  let text := skipBlanks text
  if (text.take 3).map Char.toLower = ['u', 't', 'c'] then return (0, text.drop 3)
  match text with
  | [] => throw .tooShort
  | mark :: rest =>
    if mark = 'Z' ∨ mark = 'z' then return (0, rest)
    unless mark ∈ ['+', '-', '−'] do throw .invalid
    if isTooShort rest then throw .tooShort
    let some hours := pair rest | throw .invalid
    let rest := (rest.drop 2).dropWhile fun char => char = ':' || isBlank char
    if isTooShort rest then throw .tooShort
    let some minutes := pair rest | throw .invalid
    if 60 ≤ minutes then throw .outOfRange
    let seconds : Int := hours * 3600 + minutes * 60
    return (if mark = '+' then seconds else -seconds, rest.drop 2)

/-- Moments are read only in these years. -/
def isCovered (year : Int) : Bool := -262143 ≤ year && year ≤ 262142

/-- The moment a text denotes. -/
def parse (text : String) : Except Fault Timestamp := do
  let (year, rest) ← year text.toList
  let (month, rest) ← field 1 12 (← sign '-' rest)
  let (day, rest) ← field 1 31 (← sign '-' rest)
  let rest ← match rest with
    | [] => throw .tooShort
    | mark :: rest => if mark ∈ ['t', 'T', ' '] then pure rest else throw .invalid
  let (hour, rest) ← field 0 23 rest
  let (minute, rest) ← field 0 59 (← sign ':' rest)
  let (second, rest) ← field 0 60 (← sign ':' rest)
  let (nanos, rest) ← fraction rest
  let (offset, rest) ← offset rest
  unless (skipBlanks rest).isEmpty do throw .tooLong
  if CalendarDay.monthLength year month < day ∨ ¬ isCovered year ∨ 86400 ≤ offset.natAbs then
    throw .outOfRange
  let days := CalendarDay.toDays ⟨year, month, day⟩
  let leap := second / 60
  let seconds := days * 86400 + hour * 3600 + minute * 60 + (second - leap : Nat) - offset
  unless isCovered (CalendarDay.ofDays (seconds / 86400)).year do throw .impossible
  pure ⟨seconds, nanos + leap * 1000000000⟩

/-- Reads a moment. -/
def read : Reads Timestamp
  | .string text =>
    match parse text with
    | .ok moment => .ok moment
    | .error fault => .error (.refused fault.message)
  | other => .error (.wrongKind other "an RFC 3339 formatted date and time string")

end Timestamp

end ScreenPilot
