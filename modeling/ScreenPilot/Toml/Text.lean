import ScreenPilot.Text.Digits

/-!
# Texts and keys of a TOML document

A text stands in one or in three quotation marks. Between double ones a
backslash escapes, between single ones nothing does. Three marks let the text
run over several lines; a line break right after the opening ones is left out.

Every function takes the characters that are left and returns what follows, or
nothing if the document is malformed there.
-/

set_option autoImplicit false

namespace ScreenPilot

namespace Toml

/-- A character that a comment and a text may hold as it is. -/
def isPrintable (char : Char) : Bool :=
  char = '\t' || (32 ≤ char.toNat && char.toNat ≠ 127)

/-- A blank that ends no line. -/
def isBlank (char : Char) : Bool := char = ' ' || char = '\t'

/-- What follows the blanks at the front. -/
def skipBlanks (chars : List Char) : List Char := chars.dropWhile isBlank

/-- What follows a line break at the front. -/
def lineBreak? : List Char → Option (List Char)
  | '\n' :: rest => some rest
  | '\r' :: '\n' :: rest => some rest
  | _ => none

/-! ## Escapes -/

/-- The character of an escape of one letter. -/
def escaped? : Char → Option Char
  | 'b' => some '\x08'
  | 't' => some '\t'
  | 'n' => some '\n'
  | 'f' => some '\x0c'
  | 'r' => some '\r'
  | '"' => some '"'
  | '\\' => some '\\'
  | _ => none

/-- The character with a number given in hexadecimal digits. -/
def scalar? (digits : List Char) : Option Char := do
  let number ← Text.numberOf? 16 digits
  if number.isValidChar then some (Char.ofNat number) else none

/-- Puts a character in front of the text that was read. -/
def before (char : Char) (parsed : Option (List Char × List Char)) :
    Option (List Char × List Char) :=
  parsed.map fun (text, rest) => (char :: text, rest)

/-! ## Texts on one line -/

/-- A text between double quotation marks, read from behind the first one. -/
def basicText : List Char → Option (List Char × List Char)
  | [] => none
  | '"' :: rest => some ([], rest)
  | '\\' :: 'u' :: a :: b :: c :: d :: rest => do
    before (← scalar? [a, b, c, d]) (basicText rest)
  | '\\' :: 'U' :: a :: b :: c :: d :: e :: f :: g :: h :: rest => do
    before (← scalar? [a, b, c, d, e, f, g, h]) (basicText rest)
  | '\\' :: char :: rest => do before (← escaped? char) (basicText rest)
  | char :: rest =>
    if isPrintable char ∧ char ≠ '\\' then before char (basicText rest) else none

/-- A text between single quotation marks, read from behind the first one. -/
def literalText : List Char → Option (List Char × List Char)
  | [] => none
  | '\'' :: rest => some ([], rest)
  | char :: rest => if isPrintable char then before char (literalText rest) else none

/-! ## Texts on several lines -/

/-- What the marks at the front of a text in three marks mean: up to two of
them belong to the text when the three that end it follow. -/
def closing? (mark : Char) (chars : List Char) : Option (List Char × List Char) :=
  let count := min (chars.takeWhile (· = mark)).length 5
  if 3 ≤ count then some (List.replicate (count - 3) mark, chars.drop count) else none

/-- A text between three double quotation marks, read from behind the first
three. After a backslash at the end of a line, blanks and line breaks are
skipped; `skipping` says that they are. -/
def longBasicText (skipping : Bool) : List Char → Option (List Char × List Char)
  | [] => none
  | '\r' :: '\n' :: rest =>
    if skipping then longBasicText true rest else before '\n' (longBasicText false rest)
  | '\\' :: 'u' :: a :: b :: c :: d :: rest => do
    before (← scalar? [a, b, c, d]) (longBasicText false rest)
  | '\\' :: 'U' :: a :: b :: c :: d :: e :: f :: g :: h :: rest => do
    before (← scalar? [a, b, c, d, e, f, g, h]) (longBasicText false rest)
  | '\\' :: char :: rest =>
    match escaped? char with
    | some char => before char (longBasicText false rest)
    | none =>
      if char = '\n' then longBasicText true rest
      else if (isBlank char ∨ char = '\r') ∧ (lineBreak? (skipBlanks (char :: rest))).isSome then
        longBasicText true rest
      else none
  | char :: rest =>
    if skipping ∧ (isBlank char ∨ char = '\n') then longBasicText true rest
    else if char = '"' then
      match closing? '"' (char :: rest) with
      | some closed => some closed
      | none => before char (longBasicText false rest)
    else if (isPrintable char ∨ char = '\n') ∧ char ≠ '\\' then
      before char (longBasicText false rest)
    else none

/-- A text between three single quotation marks, read from behind the first
three. -/
def longLiteralText : List Char → Option (List Char × List Char)
  | [] => none
  | '\r' :: '\n' :: rest => before '\n' (longLiteralText rest)
  | char :: rest =>
    if char = '\'' then
      match closing? '\'' (char :: rest) with
      | some closed => some closed
      | none => before char (longLiteralText rest)
    else if isPrintable char ∨ char = '\n' then before char (longLiteralText rest)
    else none

/-- What follows the line break right behind three opening marks, if there is
one. -/
def skipFirstBreak (chars : List Char) : List Char := (lineBreak? chars).getD chars

/-- A text of any of the four forms. -/
def readText : List Char → Option (String × List Char)
  | '"' :: '"' :: '"' :: rest => finish (longBasicText false (skipFirstBreak rest))
  | '"' :: rest => finish (basicText rest)
  | '\'' :: '\'' :: '\'' :: rest => finish (longLiteralText (skipFirstBreak rest))
  | '\'' :: rest => finish (literalText rest)
  | _ => none
where
  finish (parsed : Option (List Char × List Char)) : Option (String × List Char) :=
    parsed.map fun (text, rest) => (String.ofList text, rest)

/-! ## Keys -/

/-- A character of a key without quotation marks. -/
def isBareKey (char : Char) : Bool := char.isAlphanum || char = '_' || char = '-'

/-- One part of a key. -/
def readKeyPart : List Char → Option (String × List Char)
  | '"' :: rest => readText.finish (basicText rest)
  | '\'' :: rest => readText.finish (literalText rest)
  | chars =>
    match chars.takeWhile isBareKey with
    | [] => none
    | name => some (String.ofList name, chars.dropWhile isBareKey)

/-- The parts of a key with points between them, at most `most` of them. -/
def readKeyParts : Nat → List Char → Option (List String × List Char)
  | 0, _ => none
  | most + 1, chars => do
    let (part, rest) ← readKeyPart (skipBlanks chars)
    match skipBlanks rest with
    | '.' :: rest => (readKeyParts most rest).map fun (parts, rest) => (part :: parts, rest)
    | rest => some ([part], rest)

/-- A key has at most this many parts. -/
def mostKeyParts : Nat := 79

/-- A key. -/
def readKey : List Char → Option (List String × List Char) := readKeyParts mostKeyParts

end Toml

end ScreenPilot
