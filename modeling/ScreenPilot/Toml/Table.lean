import ScreenPilot.Toml.Value

/-!
# Tables of a TOML document

A document is a list of headers and of keys with values, in which every table
is written once. A table may be made before its own header by the header of a
table inside it, but a table made by dotted keys is only ever filled by dotted
keys, and a value that is written out stays as it is.
-/

set_option autoImplicit false

namespace ScreenPilot

namespace Toml

/-- How a table came to be. -/
inductive Origin where
  /-- By a header of its own. -/
  | header
  /-- By the header of a table inside it. -/
  | implied
  /-- By dotted keys. -/
  | dotted
deriving DecidableEq

/-- What a document has put under a key. -/
inductive Entry where
  | value (value : Toml)
  | table (origin : Origin) (entries : List (String × Entry))
  /-- An array of tables, each with a header of its own. -/
  | tables (elements : List (List (String × Entry)))

/-- The entries of a table under construction. -/
abbrev Entries := List (String × Entry)

namespace Entries

/-- The entries with another one under a key, which keeps its place. -/
def put (key : String) (entry : Entry) : Entries → Entries
  | [] => [(key, entry)]
  | (other, old) :: rest =>
    if other = key then (key, entry) :: rest else (other, old) :: put key entry rest

/-- Changes the table at the end of a path. A missing table on the way is made
with origin `made`; through an array of tables the path leads to its last one.
`enter` says which tables may be entered, `origin` is that of the first table. -/
def change (made : Origin) (enter : Origin → Bool)
    (act : Origin → Entries → Option Entries) :
    List String → Origin → Entries → Option Entries
  | [], origin, entries => act origin entries
  | key :: path, _, entries =>
    match entries.lookup key with
    | none => do
      some (put key (.table made (← change made enter act path made [])) entries)
    | some (.table origin inside) =>
      if enter origin then do
        some (put key (.table origin (← change made enter act path origin inside)) entries)
      else none
    | some (.tables elements) =>
      match elements.reverse with
      | [] => none
      | last :: earlier => do
        let last ← change made enter act path .header last
        some (put key (.tables (last :: earlier).reverse) entries)
    | some (.value _) => none

/-- A dotted key enters every table without a header of its own. -/
def entersDotted (origin : Origin) : Bool := origin ≠ .header

/-- Puts a value under the last part of a dotted key; `path` holds the parts
before it. The table there must have been made by dotted keys too. -/
def setDotted (path : List String) (key : String) (value : Toml) (entries : Entries) :
    Option Entries :=
  change .dotted entersDotted
    (fun origin inside =>
      if (origin = .dotted ↔ path ≠ []) ∧ (inside.lookup key).isNone then
        some (put key (.value value) inside)
      else none)
    path .header entries

/-- Puts a value under a dotted key of the table whose header was last. -/
def set (header : List String) (path : List String) (key : String) (value : Toml)
    (entries : Entries) : Option Entries :=
  change .implied (fun _ => true) (fun _ inside => setDotted path key value inside)
    header .header entries

/-- Opens a table by its header. -/
def openTable (path : List String) (key : String) (entries : Entries) : Option Entries :=
  change .implied (fun _ => true)
    (fun _ inside =>
      match inside.lookup key with
      | none => some (put key (.table .header []) inside)
      | some (.table .implied found) => some (put key (.table .header found) inside)
      | some _ => none)
    path .header entries

/-- Opens another table of an array of tables by its header. -/
def openElement (path : List String) (key : String) (entries : Entries) : Option Entries :=
  change .implied (fun _ => true)
    (fun _ inside =>
      match inside.lookup key with
      | none => some (put key (.tables [[]]) inside)
      | some (.tables elements) => some (put key (.tables (elements ++ [[]])) inside)
      | some _ => none)
    path .header entries

end Entries

mutual

/-- The value that an entry has in the end. -/
def Entry.toToml : Entry → Toml
  | .value value => value
  | .table _ entries => .table (entriesToToml entries)
  | .tables elements => .array (elementsToToml elements)

/-- The values of entries. -/
def entriesToToml : List (String × Entry) → List (String × Toml)
  | [] => []
  | (key, entry) :: rest => (key, entry.toToml) :: entriesToToml rest

/-- The tables of an array of tables. -/
def elementsToToml : List (List (String × Entry)) → List Toml
  | [] => []
  | entries :: rest => .table (entriesToToml entries) :: elementsToToml rest

end

end Toml

end ScreenPilot
