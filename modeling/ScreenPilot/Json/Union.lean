import ScreenPilot.Json.Record

/-!
# Reading named variants

A variant without contents is its name, or an object whose one key is the name
and whose value is null. A union with contents is an object that holds the name
under `type` and the contents under `param`, in which other keys are ignored,
or an array of these two, whose first item can only be the bare name.
-/

set_option autoImplicit false

namespace ScreenPilot

namespace Decode

/-- A name out of a list of names. -/
def knownName (known : List String) (name : String) : ReadResult String :=
  if name ∈ known then .ok name else .error (.unknownVariant name known)

/-- The name of a variant without contents. -/
def variantName (known : List String) : Reads String
  | .string name => knownName known name
  | .object [(name, contents)] => do
    let name ← knownName known name
    match contents with
    | .null => pure name
    | other => throw (.wrongKind other "unit")
  | .object entries => .error (.wrongValue (.object entries) "map with a single key")
  | other => .error (.wrongKind other "string or map")

/-- The name of a variant that stands before its contents in an array. -/
def leadingName (known : List String) : Reads String
  | .string name => knownName known name
  | other => .error (.wrongKind other "variant identifier")

/-- A union with contents: the name of the variant, and its contents if there
are any. -/
def tagged {α : Type} (union : String) (known : List String)
    (contents : String → Option Json → ReadResult α) : Reads α
  | .object entries =>
    match entries.lookup "type" with
    | none => .error (.missingField "type")
    | some tag => do contents (← variantName known tag) (entries.lookup "param")
  | .array [] => .error (.wrongLength 0 ("adjacently tagged enum " ++ union))
  | .array (tag :: items) => do
    let name ← leadingName known tag
    match items with
    | [] => throw (.wrongLength 1 ("adjacently tagged enum " ++ union))
    | item :: surplus =>
      let result ← contents name (some item)
      if surplus.isEmpty then pure result
      else throw (.wrongLength (items.length + 1) "fewer elements in array")
  | other => .error (.wrongKind other ("adjacently tagged enum " ++ union))

/-- The contents of a variant that has none. -/
def noContents {α : Type} (variant : String) (value : α) : Option Json → ReadResult α
  | none | some .null => .ok value
  | some other => .error (.wrongKind other ("unit variant " ++ variant))

/-- The contents of a variant that must have some. -/
def someContents {α : Type} (read : Reads α) : Option Json → ReadResult α
  | none => .error (.missingField "param")
  | some value => read value

/-- The contents of a variant that are an object with the fields of a record. -/
def fieldContents {α : Type} (variant : String) (form : RecordForm α) (start : α) :
    Option Json → ReadResult α :=
  someContents (form.readObject start ("struct variant " ++ variant))

end Decode

end ScreenPilot
