import ScreenPilot.Json.Value

/-!
# TOML values

What stands behind a key of a TOML document. Only records are ever read from a
document, so a value is handed on as a JSON value; a date or time, which JSON
has no kind for, becomes a record whose one field no form knows.
-/

set_option autoImplicit false

namespace ScreenPilot

/-- A TOML value. -/
inductive Toml where
  | bool (flag : Bool)
  | integer (number : Int)
  | float (number : Double)
  | string (text : String)
  /-- A date, a time or both, as written. -/
  | moment (text : String)
  | array (items : List Toml)
  | table (entries : List (String × Toml))
deriving Inhabited

namespace Toml

/-- The field that a date or time becomes. -/
def momentKey : String := ""

mutual

/-- The value as a JSON value. -/
def toJson : Toml → Json
  | .bool flag => .bool flag
  | .integer number => .integer number
  | .float number => .float number
  | .string text => .string text
  | .moment text => .object [(momentKey, .string text)]
  | .array items => .array (itemsToJson items)
  | .table entries => .object (entriesToJson entries)

/-- The items of an array as JSON values. -/
def itemsToJson : List Toml → List Json
  | [] => []
  | item :: rest => item.toJson :: itemsToJson rest

/-- The entries of a table as JSON fields. -/
def entriesToJson : List (String × Toml) → List (String × Json)
  | [] => []
  | (key, value) :: rest => (key, value.toJson) :: entriesToJson rest

end

end Toml

end ScreenPilot
