import ScreenPilot.Json.Value

/-!
# Writing JSON

The compact form: no blanks, fields in the order the object holds them, quotes,
backslashes and control characters escaped and every other character as it is.
-/

set_option autoImplicit false

namespace ScreenPilot

namespace Json

/-- The two lowest hexadecimal digits of a number. -/
def hexPair (code : Nat) : List Char :=
  [Nat.digitChar (code / 16 % 16), Nat.digitChar (code % 16)]

/-- One character inside a JSON string. -/
def escapedChar (char : Char) : List Char :=
  match char with
  | '"' => ['\\', '"']
  | '\\' => ['\\', '\\']
  | '\n' => ['\\', 'n']
  | '\r' => ['\\', 'r']
  | '\t' => ['\\', 't']
  | '\x08' => ['\\', 'b']
  | '\x0c' => ['\\', 'f']
  | other =>
    if other.toNat < 32 then ['\\', 'u', '0', '0'] ++ hexPair other.toNat else [other]

/-- A text as a JSON string, with its quotes. -/
def quoted (text : String) : String :=
  String.ofList ('"' :: text.toList.flatMap escapedChar ++ ['"'])

/-- Pieces of text with a comma between any two. -/
def joined (pieces : List String) : String := ",".intercalate pieces

mutual

/-- The compact text of a value. -/
def write : Json → String
  | .null => "null"
  | .bool flag => if flag then "true" else "false"
  | .integer number => toString number
  | .float number => number.text
  | .string text => quoted text
  | .array items => "[" ++ joined (writeItems items) ++ "]"
  | .object fields => "\x7b" ++ joined (writeFields fields) ++ "\x7d"

/-- The texts of the items of an array. -/
def writeItems : List Json → List String
  | [] => []
  | item :: rest => write item :: writeItems rest

/-- The texts of the fields of an object. -/
def writeFields : List (String × Json) → List String
  | [] => []
  | (key, value) :: rest => (quoted key ++ ":" ++ write value) :: writeFields rest

end

end Json

end ScreenPilot
