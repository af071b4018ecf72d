import ScreenPilot.Json.Writer
import ScreenPilot.Text.Quoted

/-!
# Why a value cannot be read

Each cause keeps what it is about; `ReadError.message` words it. The wording
names what was found in the document and what the place called for.
-/

set_option autoImplicit false

namespace ScreenPilot

/-- Why a JSON value is not of the form its place calls for. -/
inductive ReadError where
  /-- The value is of another kind. -/
  | wrongKind (found : Json) (expected : String)
  /-- The value is of the right kind but outside the admitted range. -/
  | wrongValue (found : Json) (expected : String)
  /-- An array of this length stands where another length is called for. -/
  | wrongLength (length : Nat) (expected : String)
  | missingField (key : String)
  | unknownField (key : String) (known : List String)
  | unknownVariant (name : String) (known : List String)
  /-- The value has none of the forms of a union. -/
  | noVariant (union : String)
  /-- The value was understood and turned down. -/
  | refused (reason : String)

namespace ReadError

/-- What a message calls a value. -/
def found : Json → String
  | .null => "null"
  | .bool flag => "boolean `" ++ (if flag then "true" else "false") ++ "`"
  | .integer number => "integer `" ++ toString number ++ "`"
  | .float number => "floating point `" ++ number.text ++ "`"
  | .string text => "string " ++ Text.quoted text
  | .array _ => "sequence"
  | .object _ => "map"

/-- The admitted names, in a message. -/
def oneOf : List String → String
  | [] => "nothing"
  | [only] => "`" ++ only ++ "`"
  | [first, second] => "`" ++ first ++ "` or `" ++ second ++ "`"
  | names => "one of " ++ ", ".intercalate (names.map fun name => "`" ++ name ++ "`")

/-- The wording of a cause. -/
def message : ReadError → String
  | .wrongKind value expected => "invalid type: " ++ found value ++ ", expected " ++ expected
  | .wrongValue value expected => "invalid value: " ++ found value ++ ", expected " ++ expected
  | .wrongLength length expected =>
    "invalid length " ++ toString length ++ ", expected " ++ expected
  | .missingField key => "missing field `" ++ key ++ "`"
  | .unknownField key known => "unknown field `" ++ key ++ "`, expected " ++ oneOf known
  | .unknownVariant name known => "unknown variant `" ++ name ++ "`, expected " ++ oneOf known
  | .noVariant union => "data did not match any variant of untagged enum " ++ union
  | .refused reason => reason

end ReadError

/-- The outcome of reading a value. -/
abbrev ReadResult (α : Type) := Except ReadError α

/-- A way to read values of a type. -/
abbrev Reads (α : Type) := Json → ReadResult α

end ScreenPilot
