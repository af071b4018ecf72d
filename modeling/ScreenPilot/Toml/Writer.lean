import ScreenPilot.Files.Path
import ScreenPilot.Toml.Text

/-!
# Writing TOML

A text is written in the plainest of four forms that can hold it unescaped:
between double marks, single marks, three double marks or three single marks,
in this order. Only if none can, it is escaped. A number with more than
sixty-three bits and a path that is no text cannot be written.
-/

set_option autoImplicit false

namespace ScreenPilot

namespace Toml

/-! ## Texts -/

/-- A character that no form holds as it is. -/
def isControl (char : Char) : Bool :=
  (char.toNat < 32 && char ≠ '\t' && char ≠ '\n') || char.toNat = 127

/-- The length of the longest run of a character. -/
def longestRun (char : Char) (chars : List Char) : Nat :=
  (chars.foldl (fun (run : Nat × Nat) other =>
    if other = char then (run.1 + 1, max run.2 (run.1 + 1)) else (0, run.2)) (0, 0)).2

/-- The forms of a written text. -/
inductive TextForm where
  | basic
  | literal
  | longBasic
  | longLiteral
deriving DecidableEq

/-- The form a text is written in. -/
def TextForm.of (chars : List Char) : TextForm :=
  let isPlain := ¬ chars.any isControl
  let isOneLine := '\n' ∉ chars
  if isPlain ∧ isOneLine ∧ '\\' ∉ chars ∧ '"' ∉ chars then .basic
  else if isPlain ∧ isOneLine ∧ '\'' ∉ chars then .literal
  else if isPlain ∧ '\\' ∉ chars ∧ longestRun '"' chars ≤ 2 then .longBasic
  else if isPlain ∧ longestRun '\'' chars ≤ 2 then .longLiteral
  else if isOneLine then .basic
  else .longBasic

/-- A hexadecimal digit, letters as capitals. -/
def capitalDigit (value : Nat) : Char := (Nat.digitChar value).toUpper

/-- A character between double marks, other than a double mark itself. -/
def escapedChar (char : Char) : List Char :=
  match char with
  | '\\' => ['\\', '\\']
  | '\x08' => ['\\', 'b']
  | '\t' => ['\\', 't']
  | '\n' => ['\\', 'n']
  | '\x0c' => ['\\', 'f']
  | '\r' => ['\\', 'r']
  | other =>
    if isControl other then
      ['\\', 'u', '0', '0', capitalDigit (other.toNat / 16), capitalDigit (other.toNat % 16)]
    else [other]

/-- The characters of a text between double marks. -/
def writeBasic (chars : List Char) : List Char :=
  chars.flatMap fun char => if char = '"' then ['\\', '"'] else escapedChar char

/-- The characters of a text between three double marks; `run` double marks
stand in front. A third one is escaped. -/
def writeLongBasic (run : Nat) : List Char → List Char
  | [] => []
  | char :: rest =>
    if char = '"' then
      if run < 2 then '"' :: writeLongBasic (run + 1) rest
      else '\\' :: '"' :: writeLongBasic 0 rest
    else if char = '\n' then '\n' :: writeLongBasic 0 rest
    else escapedChar char ++ writeLongBasic 0 rest

/-- A text as it is written. -/
def writeText (text : String) : String :=
  let chars := text.toList
  let firstBreak := if '\n' ∈ chars then ['\n'] else []
  String.ofList <|
    match TextForm.of chars with
    | .basic => '"' :: writeBasic chars ++ ['"']
    | .literal => '\'' :: chars ++ ['\'']
    | .longBasic =>
      ['"', '"', '"'] ++ firstBreak ++ writeLongBasic 0 chars ++ ['"', '"', '"']
    | .longLiteral => ['\'', '\'', '\''] ++ firstBreak ++ chars ++ ['\'', '\'', '\'']

/-! ## Values -/

/-- A value that is written on one line of a section. -/
inductive Scalar where
  | bool (flag : Bool)
  | integer (number : Int64)
  | string (text : String)

namespace Scalar

/-- A number as it is written, or why it cannot be. -/
def ofUInt64 (number : UInt64) : Except String Scalar :=
  if number.toNat ≤ Int64.maxValue.toInt then .ok (.integer (.ofNat number.toNat))
  else .error "out-of-range value for u64 type"

def ofUInt32 (number : UInt32) : Scalar := .integer (.ofNat number.toNat)

/-- A path as it is written, or why it cannot be. -/
def ofPath (path : RawPath) : Except String Scalar :=
  match path.text? with
  | some text => .ok (.string text)
  | none => .error "path contains invalid UTF-8 characters"

/-- The value as it is written. -/
def write : Scalar → String
  | .bool flag => if flag then "true" else "false"
  | .integer number => toString number.toInt
  | .string text => writeText text

end Scalar

/-! ## Sections -/

/-- The name of a section and its pairs. -/
abbrev Section : Type := String × List (String × Scalar)

/-- A key with its value, on a line of its own. -/
def writePair (key : String) (value : Scalar) : String := key ++ " = " ++ value.write ++ "\n"

/-- A section: its header and its pairs. -/
def writeSection : Section → String
  | (name, pairs) =>
    "[" ++ name ++ "]\n" ++ String.join (pairs.map fun (key, value) => writePair key value)

/-- Sections with an empty line between any two. -/
def writeSections (sections : List Section) : String :=
  "\n".intercalate (sections.map writeSection)

end Toml

end ScreenPilot
