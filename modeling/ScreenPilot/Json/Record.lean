import ScreenPilot.Json.Decode

/-!
# Reading records

A record is read from an object by its keys, in the order the object holds
them, or from an array by position. Fields are read one after the other into
the record under construction, so a missing field keeps what the construction
started with.

`RecordForm.read` is the only place that decides which of several faults of a
document is reported: the first one in the order of the document, and a missing
field only when everything present could be read.
-/

set_option autoImplicit false

namespace ScreenPilot

/-- Where a field has to be present. -/
inductive Presence where
  /-- In objects and in arrays. -/
  | always
  /-- In arrays only. -/
  | inArrays
  | never
deriving DecidableEq

/-- One field of a record. -/
structure FieldForm (α : Type) where
  key : String
  presence : Presence
  /-- Reads a value into the record under construction. -/
  set : Json → α → ReadResult α

/-- A field whose value replaces a component of the record. -/
def FieldForm.of {α β : Type} (key : String) (presence : Presence) (read : Reads β)
    (put : β → α → α) : FieldForm α :=
  ⟨key, presence, fun value record => (read value).map fun part => put part record⟩

/-- The form of a record. -/
structure RecordForm (α : Type) where
  /-- What a message calls the record. -/
  label : String
  fields : List (FieldForm α)
  /-- A key that is no field's is an error, not ignored. -/
  isClosed : Bool

namespace RecordForm

variable {α : Type}

/-- The keys of the fields, in their order. -/
def keys (form : RecordForm α) : List String := form.fields.map FieldForm.key

/-- Reads one entry of an object into the record under construction. -/
def setEntry (form : RecordForm α) (record : α) (entry : String × Json) : ReadResult α :=
  match form.fields.find? fun field => field.key = entry.1 with
  | some field => field.set entry.2 record
  | none => if form.isClosed then .error (.unknownField entry.1 form.keys) else .ok record

/-- The fields an object must have and does not. -/
def absent (form : RecordForm α) (entries : List (String × Json)) : List String :=
  (form.fields.filter fun field =>
    field.presence = .always ∧ (entries.lookup field.key).isNone).map FieldForm.key

/-- Reads the entries of an object into a record. -/
def readEntries (form : RecordForm α) (start : α) (entries : List (String × Json)) :
    ReadResult α := do
  let record ← entries.foldlM form.setEntry start
  match form.absent entries with
  | [] => pure record
  | key :: _ => throw (.missingField key)

/-- Reads the items of an array into the fields in their order. `position` counts
the fields already passed, those that took no item included. -/
def readItems (form : RecordForm α) (position : Nat) :
    List (FieldForm α) → List Json → α → ReadResult α
  | [], _, record => .ok record
  | field :: fields, item :: items, record => do
    form.readItems (position + 1) fields items (← field.set item record)
  | field :: fields, [], record =>
    if field.presence = .never then form.readItems (position + 1) fields [] record
    else .error (.wrongLength position
      (form.label ++ " with " ++ toString form.fields.length ++ " elements"))

/-- Reads a record, starting from `start`. With `anySurplus`, items of an array
beyond the last field are ignored. -/
def read (form : RecordForm α) (start : α) (anySurplus : Bool) : Reads α
  | .object entries => form.readEntries start entries
  | .array items => do
    let record ← form.readItems 0 form.fields items start
    if form.fields.length < items.length ∧ ¬ anySurplus then
      throw (.wrongLength items.length "fewer elements in array")
    pure record
  | other => .error (.wrongKind other form.label)

/-- Reads a record given as an object only; `expected` names it in a message. -/
def readObject (form : RecordForm α) (start : α) (expected : String) : Reads α
  | .object entries => form.readEntries start entries
  | other => .error (.wrongKind other expected)

end RecordForm

end ScreenPilot
