import ScreenPilot.Json.Number

/-!
# Reading JSON

A text is first cut into tokens, one character at a time, and the tokens are
then put together, one token at a time, on a stack of unfinished arrays and
objects. Both passes are folds, so reading ends on every text.

`Json.parse?` gives nothing for a text that is not exactly one JSON value with
blanks around it, that holds half of a surrogate pair or a control character in
a string, that has a number too large for a double, or that nests deeper than
`Json.deepestNesting`.
-/

set_option autoImplicit false

namespace ScreenPilot

namespace Json

/-- Most arrays and objects that may be open at once. -/
def deepestNesting : Nat := 127

/-! ## Tokens -/

/-- A token of a JSON text. -/
inductive Token where
  | openArray
  | closeArray
  | openObject
  | closeObject
  | comma
  | colon
  | string (text : String)
  /-- A number or one of the three names. -/
  | scalar (value : Json)

/-- What the cutter is in the middle of. Unfinished texts are kept with their
last character first. -/
inductive Cutting where
  | nothing
  /-- A name or a numeral. -/
  | word (read : List Char)
  | string (read : List Char)
  /-- Inside a string, after a backslash. -/
  | escape (read : List Char)
  /-- Inside a string, with this many hexadecimal digits of a unit still to come;
  `high` is the first unit of a pair when the second is being read. -/
  | unit (read : List Char) (high : Option Nat) (left : Nat) (value : Nat)
  /-- Inside a string, after the first unit of a pair; `slash` once the backslash
  of the second has been read. -/
  | second (read : List Char) (high : Nat) (slash : Bool)

/-- The cutter's state: the tokens so far, last first, and the unfinished one. -/
structure Cutter where
  tokens : List Token
  cutting : Cutting

/-- Blanks between tokens. -/
def isBlank (char : Char) : Bool :=
  char = ' ' || char = '\n' || char = '\t' || char = '\r'

/-- Characters a name or numeral consists of. -/
def isWordChar (char : Char) : Bool :=
  char.isAlphanum || char = '-' || char = '+' || char = '.'

/-- The value of a name or numeral. -/
def scalarOf (word : List Char) : Option Json :=
  if word = "null".toList then some .null
  else if word = "true".toList then some (.bool true)
  else if word = "false".toList then some (.bool false)
  else (Numeral.ofText word).bind Numeral.toJson

/-- A single-letter escape. -/
def shortEscape (char : Char) : Option Char :=
  match char with
  | '"' => some '"'
  | '\\' => some '\\'
  | '/' => some '/'
  | 'b' => some '\x08'
  | 'f' => some '\x0c'
  | 'n' => some '\n'
  | 'r' => some '\r'
  | 't' => some '\t'
  | _ => none

/-- Starts a token at a character that no unfinished token takes. -/
def Cutter.start (tokens : List Token) (char : Char) : Option Cutter :=
  if isBlank char then some ⟨tokens, .nothing⟩
  else if isWordChar char then some ⟨tokens, .word [char]⟩
  else match char with
    | '[' => some ⟨.openArray :: tokens, .nothing⟩
    | ']' => some ⟨.closeArray :: tokens, .nothing⟩
    | '\x7b' => some ⟨.openObject :: tokens, .nothing⟩
    | '\x7d' => some ⟨.closeObject :: tokens, .nothing⟩
    | ',' => some ⟨.comma :: tokens, .nothing⟩
    | ':' => some ⟨.colon :: tokens, .nothing⟩
    | '"' => some ⟨tokens, .string []⟩
    | _ => none

/-- Takes the last hexadecimal digit of a unit of sixteen bits: a whole
character, the first half of a pair, or the second half that completes one. -/
def unitEnd (read : List Char) (high : Option Nat) (value : Nat) : Option Cutting :=
  let isHigh := 0xd800 ≤ value && value < 0xdc00
  let isLow := 0xdc00 ≤ value && value < 0xe000
  match high with
  | none =>
    if isHigh then some (.second read value false)
    else if isLow then none
    else some (.string (Char.ofNat value :: read))
  | some high =>
    if isLow then
      some (.string (Char.ofNat (0x10000 + (high - 0xd800) * 0x400 + (value - 0xdc00)) :: read))
    else none

/-- Takes one character. -/
def Cutter.take (state : Cutter) (char : Char) : Option Cutter :=
  match state.cutting with
  | .nothing => Cutter.start state.tokens char
  | .word read =>
    if isWordChar char then some ⟨state.tokens, .word (char :: read)⟩
    else (scalarOf read.reverse).bind fun value =>
      Cutter.start (.scalar value :: state.tokens) char
  | .string read =>
    if char = '"' then some ⟨.string (String.ofList read.reverse) :: state.tokens, .nothing⟩
    else if char = '\\' then some ⟨state.tokens, .escape read⟩
    else if char.toNat < 32 then none
    else some ⟨state.tokens, .string (char :: read)⟩
  | .escape read =>
    if char = 'u' then some ⟨state.tokens, .unit read none 4 0⟩
    else (shortEscape char).map fun char => ⟨state.tokens, .string (char :: read)⟩
  | .unit read high left value =>
    (Text.digitValue? 16 char).bind fun digit =>
      let value := value * 16 + digit
      if left = 1 then (unitEnd read high value).map fun cutting => ⟨state.tokens, cutting⟩
      else some ⟨state.tokens, .unit read high (left - 1) value⟩
  | .second read high slash =>
    if slash then
      if char = 'u' then some ⟨state.tokens, .unit read (some high) 4 0⟩ else none
    else if char = '\\' then some ⟨state.tokens, .second read high true⟩
    else none

/-- The tokens of a text that ends here. -/
def Cutter.finish (state : Cutter) : Option (List Token) :=
  match state.cutting with
  | .nothing => some state.tokens.reverse
  | .word read => (scalarOf read.reverse).map fun value => (.scalar value :: state.tokens).reverse
  | _ => none

/-- The tokens of a text. -/
def tokens? (text : String) : Option (List Token) :=
  (text.toList.foldlM Cutter.take ⟨[], .nothing⟩).bind Cutter.finish

/-! ## Values -/

/-- An unfinished container, its contents last first. -/
inductive Frame where
  | array (items : List Json)
  /-- An object whose field under `key` is being read. -/
  | object (fields : List (String × Json)) (key : String)

/-- What may come next. -/
inductive Expected where
  /-- A value, or the end of the array just opened. -/
  | itemOrEnd
  | value
  /-- A key, or the end of the object just opened. -/
  | keyOrEnd
  | key (fields : List (String × Json))
  | colon
  /-- A comma, or the end of the innermost container. -/
  | commaOrEnd
  /-- Nothing: the text is complete. -/
  | nothing (value : Json)

/-- The state of putting tokens together. -/
structure Builder where
  /-- Unfinished containers, innermost first. -/
  frames : List Frame
  expected : Expected

/-- Takes a finished value into the innermost container. -/
def Builder.complete (frames : List Frame) (value : Json) : Builder :=
  match frames with
  | [] => ⟨[], .nothing value⟩
  | .array items :: rest => ⟨.array (value :: items) :: rest, .commaOrEnd⟩
  | .object fields key :: rest => ⟨.object ((key, value) :: fields) key :: rest, .commaOrEnd⟩

/-- Takes the first token of a value. -/
def Builder.begin (frames : List Frame) (token : Token) : Option Builder :=
  match token with
  | .scalar value => some (complete frames value)
  | .string text => some (complete frames (.string text))
  | .openArray =>
    if frames.length < deepestNesting then some ⟨.array [] :: frames, .itemOrEnd⟩ else none
  | .openObject =>
    if frames.length < deepestNesting then some ⟨.object [] "" :: frames, .keyOrEnd⟩ else none
  | _ => none

/-- Takes one token. -/
def Builder.take (state : Builder) (token : Token) : Option Builder :=
  match state.expected, state.frames, token with
  | .value, frames, token => begin frames token
  | .itemOrEnd, .array items :: rest, .closeArray =>
    some (complete rest (.array items.reverse))
  | .itemOrEnd, frames, token => begin frames token
  | .keyOrEnd, .object _ _ :: rest, .closeObject => some (complete rest (.object []))
  | .keyOrEnd, .object fields _ :: rest, .string key => some ⟨.object fields key :: rest, .colon⟩
  | .key fields, _ :: rest, .string key => some ⟨.object fields key :: rest, .colon⟩
  | .colon, frames, .colon => some ⟨frames, .value⟩
  | .commaOrEnd, .array items :: rest, .closeArray =>
    some (complete rest (.array items.reverse))
  | .commaOrEnd, .array items :: rest, .comma => some ⟨.array items :: rest, .value⟩
  | .commaOrEnd, .object fields _ :: rest, .closeObject =>
    some (complete rest (ofFields fields.reverse))
  | .commaOrEnd, .object fields key :: rest, .comma =>
    some ⟨.object fields key :: rest, .key fields⟩
  | _, _, _ => none

/-- The value a JSON text denotes. -/
def parse? (text : String) : Option Json := do
  let tokens ← tokens? text
  let state ← tokens.foldlM Builder.take ⟨[], .value⟩
  match state.expected with
  | .nothing value => some value
  | _ => none

end Json

end ScreenPilot
