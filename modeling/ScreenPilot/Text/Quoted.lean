import ScreenPilot.Text.Visible

/-!
# Texts in quotes

How a text or a file path is shown inside a message: in double quotes, with
quotes and backslashes escaped and with invisible characters shown by number.
-/

set_option autoImplicit false

namespace ScreenPilot

namespace Text

/-- One character of a quoted text. -/
def quotedChar (char : Char) : List Char :=
  match char with
  | '\x00' => ['\\', '0']
  | '\t' => ['\\', 't']
  | '\r' => ['\\', 'r']
  | '\n' => ['\\', 'n']
  | '"' => ['\\', '"']
  | '\\' => ['\\', '\\']
  | other =>
    if isVisible other then [other]
    else ['\\', 'u', '\x7b'] ++ Nat.toDigits 16 other.toNat ++ ['\x7d']

/-- A text in quotes. -/
def quoted (text : String) : String :=
  String.ofList ('"' :: text.toList.flatMap quotedChar ++ ['"'])

end Text

end ScreenPilot
