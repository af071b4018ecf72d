import ScreenPilot.Json.ReadError

/-!
# Reading values of basic types

Numbers are read only from numerals without point and exponent. A numeral
outside the range of its type is a wrong value, every other kind of value a
wrong kind.
-/

set_option autoImplicit false

namespace ScreenPilot

namespace Decode

/-- The value itself, whatever it is. -/
def anything : Reads Json := .ok

def bool : Reads Bool
  | .bool flag => .ok flag
  | other => .error (.wrongKind other "a boolean")

/-- A text; `expected` names it in a message. -/
def textAs (expected : String) : Reads String
  | .string text => .ok text
  | other => .error (.wrongKind other expected)

def text : Reads String := textAs "a string"

/-- A whole number from `least` to `greatest`; `expected` names it in a message. -/
def integerIn (expected : String) (least greatest : Int) : Reads Int
  | .integer number =>
    if least ≤ number ∧ number ≤ greatest then .ok number
    else .error (.wrongValue (.integer number) expected)
  | other => .error (.wrongKind other expected)

def uint64 : Reads UInt64 := fun value =>
  (integerIn "u64" 0 (UInt64.size - 1) value).map fun number => UInt64.ofNat number.toNat

def uint32 : Reads UInt32 := fun value =>
  (integerIn "u32" 0 (UInt32.size - 1) value).map fun number => UInt32.ofNat number.toNat

def int32 : Reads Int32 := fun value =>
  (integerIn "i32" Int32.minValue.toInt Int32.maxValue.toInt value).map Int32.ofInt

/-- A value that may be null. -/
def optional {α : Type} (read : Reads α) : Reads (Option α)
  | .null => .ok none
  | other => (read other).map some

/-- An array of any length. -/
def list {α : Type} (read : Reads α) : Reads (List α)
  | .array items => items.mapM read
  | other => .error (.wrongKind other "a sequence")

/-- The first reading that accepts the value; the union is named in the message
when none does. -/
def firstOf {α : Type} (union : String) (readings : List (Reads α)) : Reads α := fun value =>
  match readings.findSome? fun read => (read value).toOption with
  | some result => .ok result
  | none => .error (.noVariant union)

end Decode

end ScreenPilot
