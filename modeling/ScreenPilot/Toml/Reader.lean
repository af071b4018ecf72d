import ScreenPilot.Toml.Scalar
import ScreenPilot.Toml.Table

/-!
# Reading TOML

`Toml.parse?` gives the table that a document stands for, or nothing if the
document is malformed. Arrays and tables that are written out may be nested
seventy-nine deep.
-/

set_option autoImplicit false

namespace ScreenPilot

namespace Toml

/-! ## Between values -/

/-- What follows a line break inside a comment; the comment may hold no control
characters. -/
def afterComment : List Char → Option (List Char)
  | [] => some []
  | '\n' :: rest => some ('\n' :: rest)
  | '\r' :: '\n' :: rest => some ('\n' :: rest)
  | char :: rest => if isPrintable char then afterComment rest else none

/-- What follows the end of a line, with or without a comment. -/
def lineEnd (chars : List Char) : Option (List Char) := do
  let rest ←
    match skipBlanks chars with
    | '#' :: rest => afterComment rest
    | rest => some rest
  match rest with
  | [] => some []
  | rest => lineBreak? rest

/-- What follows blanks, line breaks and comments. `inComment` says that the
characters at the front belong to a comment. -/
def skipLines (inComment : Bool) : List Char → Option (List Char)
  | [] => some []
  | '\r' :: '\n' :: rest => skipLines false rest
  | char :: rest =>
    if char = '\n' then skipLines false rest
    else if inComment then if isPrintable char then skipLines true rest else none
    else if isBlank char then skipLines false rest
    else if char = '#' then skipLines true rest
    else some (char :: rest)

/-! ## Arrays and tables written out -/

/-- The items of an array, read from behind the bracket that opens it. -/
def readItems (item : List Char → Option (Toml × List Char)) :
    Nat → List Char → Option (List Toml × List Char)
  | 0, _ => none
  | fuel + 1, chars => do
    match ← skipLines false chars with
    | ']' :: rest => some ([], rest)
    | chars =>
      let (first, rest) ← item chars
      match ← skipLines false rest with
      | ']' :: rest => some ([first], rest)
      | ',' :: rest => (readItems item fuel rest).map fun (items, rest) => (first :: items, rest)
      | _ => none

/-- A key with its value. -/
def readPair (value : List Char → Option (Toml × List Char)) (chars : List Char) :
    Option ((List String × Toml) × List Char) := do
  let (path, rest) ← readKey chars
  let (found, rest) ← value (skipBlanks (← expect '=' rest))
  some ((path, found), rest)

/-- The pairs of a table that is written out, read from behind its brace. -/
def readPairs (value : List Char → Option (Toml × List Char)) :
    Nat → List Char → Option ((List (List String × Toml)) × List Char)
  | 0, _ => none
  | fuel + 1, chars => do
    let (first, rest) ← readPair value chars
    match skipBlanks rest with
    | '\x7d' :: rest => some ([first], rest)
    | ',' :: rest =>
      (readPairs value fuel rest).map fun (pairs, rest) => (first :: pairs, rest)
    | _ => none

/-- The table that pairs make. -/
def tableOfPairs (pairs : List (List String × Toml)) : Option Toml := do
  let entries ← pairs.foldlM (fun entries (path, value) =>
    Entries.setDotted path.dropLast (path.getLast?.getD "") value entries) ([] : Entries)
  some (.table (entriesToToml entries))

/-- A value in which arrays and tables are nested at most `depth` deep. -/
def readValue : Nat → List Char → Option (Toml × List Char)
  | 0, chars => readScalar chars
  | depth + 1, chars =>
    match chars with
    | '[' :: rest => (readItems (readValue depth) chars.length rest).map
        fun (items, rest) => (.array items, rest)
    | '\x7b' :: rest =>
      match skipBlanks rest with
      | '\x7d' :: rest => some (.table [], rest)
      | _ => do
        let (pairs, rest) ← readPairs (readValue depth) chars.length rest
        some (← tableOfPairs pairs, rest)
    | chars => readScalar chars

/-- Arrays and tables that are written out are nested at most this deep. -/
def mostNesting : Nat := 79

/-! ## Documents -/

/-- One line of a document. -/
inductive Statement where
  /-- The header of a table. -/
  | table (path : List String)
  /-- The header of another table of an array. -/
  | element (path : List String)
  | pair (path : List String) (value : Toml)

/-- A statement at the front of a line. -/
def readStatement : List Char → Option (Statement × List Char)
  | '[' :: '[' :: rest => do
    let (path, rest) ← readKey rest
    match rest with
    | ']' :: ']' :: rest => some (.element path, ← lineEnd rest)
    | _ => none
  | '[' :: rest => do
    let (path, rest) ← readKey rest
    some (.table path, ← lineEnd (← expect ']' rest))
  | chars => do
    let ((path, found), rest) ← readPair (readValue mostNesting) chars
    some (.pair path found, ← lineEnd rest)

/-- The statements of a document. -/
def readStatements : Nat → List Char → Option (List Statement)
  | 0, _ => none
  | fuel + 1, chars =>
    match skipBlanks chars with
    | [] => some []
    | '#' :: rest => do readStatements fuel (← lineEnd ('#' :: rest))
    | chars =>
      match lineBreak? chars with
      | some rest => readStatements fuel rest
      | none => do
        let (first, rest) ← readStatement chars
        (readStatements fuel rest).map (first :: ·)

/-- A document under construction: what it holds, and its last header. -/
structure Draft where
  entries : Entries
  header : List String

/-- Carries out a statement. -/
def Draft.add (draft : Draft) : Statement → Option Draft
  | .table path => do
    let entries ← draft.entries.openTable path.dropLast (path.getLast?.getD "")
    some ⟨entries, path⟩
  | .element path => do
    let entries ← draft.entries.openElement path.dropLast (path.getLast?.getD "")
    some ⟨entries, path⟩
  | .pair path value => do
    let entries ←
      draft.entries.set draft.header path.dropLast (path.getLast?.getD "") value
    some { draft with entries }

/-- What follows a byte order mark at the front. -/
def skipMark : List Char → List Char
  | '\ufeff' :: rest => rest
  | chars => chars

/-- The table a document stands for. -/
def parse? (document : String) : Option Toml := do
  let chars := skipMark document.toList
  let draft ← (← readStatements (chars.length + 1) chars).foldlM Draft.add ⟨[], []⟩
  some (.table (entriesToToml draft.entries))

end Toml

end ScreenPilot
