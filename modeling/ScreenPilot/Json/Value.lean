import ScreenPilot.Decimal.Notation
import Std.Data.ExtTreeMap.Basic

/-!
# JSON values

Whole numbers and numbers with a point or exponent are different values here,
as they are to every reader of a pipeline document. An object is the list of
its fields; `Json.ofFields` gives the form every object of a read document has,
in which the keys ascend and no key occurs twice.
-/

set_option autoImplicit false

namespace ScreenPilot

/-- A JSON value. -/
inductive Json where
  | null
  | bool (flag : Bool)
  /-- A number written without point and exponent. -/
  | integer (number : Int)
  /-- A number written with a point or an exponent, or too large to be whole. -/
  | float (number : Double)
  | string (text : String)
  | array (items : List Json)
  | object (fields : List (String × Json))
deriving Inhabited

namespace Json

/-- The object with these fields: keys ascend by code point, and of two fields
with one key the later stays. -/
def ofFields (fields : List (String × Json)) : Json :=
  .object (Std.ExtTreeMap.ofList fields).toList

/-- The field of an object under a key. Values of other kinds have none. -/
def field? (value : Json) (key : String) : Option Json :=
  match value with
  | .object fields => fields.lookup key
  | _ => none

/-- A whole number as a value. -/
def ofNat (number : Nat) : Json := .integer number

/-- A list of texts as a value. -/
def ofStrings (texts : List String) : Json := .array (texts.map .string)

/-- A value that may be missing; a missing one is null. -/
def ofOption {α : Type} (encode : α → Json) : Option α → Json
  | none => .null
  | some value => encode value

end Json

end ScreenPilot
