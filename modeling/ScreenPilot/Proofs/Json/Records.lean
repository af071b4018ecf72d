import Mathlib.Data.List.Forall2
import Mathlib.Data.List.Nodup
import Mathlib.Data.List.Pairwise
import ScreenPilot.Json.Record
import ScreenPilot.Proofs.Json.Tables

/-!
# Records that are read

A record that is read field by field keeps whatever each of its fields keeps
(`RecordForm.read_keeps`).

The parts of a record are the things that its fields may set (`RecordPart`). When each field sets
its own part (`RecordForm.Splits`), an object can be read exactly if what it says about each part
can be understood and what has to be there is there, and each part is then what is said about it,
or what it was at the start (`RecordForm.Splits.exists_readEntries_iff`). When the parts describe
the form, they and a rest that no field sets make the record (`RecordForm.Describes`). So parts do
not depend on one another, and to say nothing about a part changes this part alone
(`RecordForm.read_erase`).

What a field makes of a value need only be known for the values that are given. A value that is
itself an object is understood as it should be if it has no key twice.
-/

set_option autoImplicit false

namespace ScreenPilot

/-! ## What fields keep -/

/-- What follows something has a value exactly if both have one. -/
theorem bind_eq_ok_iff {ε α β : Type} {first : Except ε α} {next : α → Except ε β} {value : β} :
    first >>= next = .ok value ↔ ∃ middle, first = .ok middle ∧ next middle = .ok value := by
  cases first with
  | error cause => exact ⟨nofun, nofun⟩
  | ok middle => exact ⟨fun ends => ⟨middle, rfl, ends⟩, fun ⟨_, rfl, ends⟩ => ends⟩

theorem map_eq_ok_iff {ε α β : Type} {result : Except ε α} {change : α → β} {value : β} :
    result.map change = .ok value ↔ ∃ given, result = .ok given ∧ value = change given := by
  cases result <;> simp [Except.map, eq_comm]

/-- What stands in an object or an array is like this. -/
def Json.Within (given : Json → Prop) : Json → Prop
  | .object entries => ∀ entry ∈ entries, given entry.2
  | .array items => ∀ item ∈ items, given item
  | _ => True

theorem Json.within_of_forall {given : Json → Prop} (every : ∀ value, given value) (value : Json) :
    value.Within given := by
  cases value with
  | object entries => exact fun entry _ => every entry.2
  | array items => exact fun item _ => every item
  | _ => trivial

theorem Json.Within.lookup {given : Json → Prop} {entries : List (String × Json)} {key : String}
    {value : Json} (within : (Json.object entries).Within given)
    (found : entries.lookup key = some value) : given value := by
  obtain ⟨before, after, rfl, -⟩ := List.lookup_eq_some_iff.mp found
  exact within (key, value) (by simp)

/-- What is read into a field from values like this keeps a property of the record. -/
def FieldForm.Keeps {α : Type} (given : Json → Prop) (holds : α → Prop) (field : FieldForm α) :
    Prop :=
  ∀ value record record', given value → field.set value record = .ok record' → holds record →
    holds record'

theorem FieldForm.keeps_of {α β : Type} {given : Json → Prop} {holds : α → Prop} {key : String}
    {presence : Presence} {read : Reads β} {put : β → α → α}
    (keeps : ∀ value part record, given value → read value = .ok part → holds record →
      holds (put part record)) :
    (FieldForm.of key presence read put).Keeps given holds := by
  intro value record record' isGiven set held
  obtain ⟨part, reads, rfl⟩ := map_eq_ok_iff.mp set
  exact keeps value part record isGiven reads held

namespace RecordForm

variable {α : Type} {form : RecordForm α} {given : Json → Prop} {holds : α → Prop}

theorem setEntry_keeps (fields : ∀ field ∈ form.fields, field.Keeps given holds)
    {record record' : α} {entry : String × Json} (isGiven : given entry.2)
    (set : form.setEntry record entry = .ok record') (held : holds record) : holds record' := by
  unfold setEntry at set
  split at set
  · rename_i field found
    exact fields field (List.mem_of_find?_eq_some found) _ _ _ isGiven set held
  · split at set
    · exact nomatch set
    · cases set
      exact held

theorem readEntries_keeps (fields : ∀ field ∈ form.fields, field.Keeps given holds)
    {start record : α} {entries : List (String × Json)}
    (within : ∀ entry ∈ entries, given entry.2)
    (reads : form.readEntries start entries = .ok record) (held : holds start) : holds record := by
  obtain ⟨last, folded, ends⟩ := bind_eq_ok_iff.mp reads
  have kept : holds last := by
    clear reads ends
    induction entries generalizing start with
    | nil =>
      cases folded
      exact held
    | cons entry entries ih =>
      obtain ⟨isGiven, within⟩ := List.forall_mem_cons.mp within
      rw [List.foldlM_cons] at folded
      obtain ⟨next, set, folded⟩ := bind_eq_ok_iff.mp folded
      exact ih within (setEntry_keeps fields isGiven set held) folded
  split at ends
  · cases ends
    exact kept
  · exact nomatch ends

theorem readItems_keeps {fields : List (FieldForm α)}
    (keeps : ∀ field ∈ fields, field.Keeps given holds) {position : Nat} {items : List Json}
    {start record : α} (within : ∀ item ∈ items, given item)
    (reads : form.readItems position fields items start = .ok record) (held : holds start) :
    holds record := by
  induction fields generalizing position items start with
  | nil =>
    rw [readItems] at reads
    cases reads
    exact held
  | cons field fields ih =>
    have rest := fun field member => keeps field (List.mem_cons_of_mem _ member)
    cases items with
    | nil =>
      rw [readItems] at reads
      split at reads
      · exact ih rest within reads held
      · exact nomatch reads
    | cons item items =>
      obtain ⟨isGiven, within⟩ := List.forall_mem_cons.mp within
      rw [readItems] at reads
      obtain ⟨next, set, reads⟩ := bind_eq_ok_iff.mp reads
      exact ih rest within reads (keeps field List.mem_cons_self _ _ _ isGiven set held)

/-- **A record that is read has what its start has and every field keeps.** -/
theorem read_keeps (fields : ∀ field ∈ form.fields, field.Keeps given holds) {start record : α}
    {anySurplus : Bool} {value : Json} (within : value.Within given)
    (reads : form.read start anySurplus value = .ok record) (held : holds start) :
    holds record := by
  cases value with
  | object entries => exact readEntries_keeps fields within reads held
  | array items =>
    obtain ⟨last, passed, ends⟩ := bind_eq_ok_iff.mp reads
    have kept : holds last := readItems_keeps fields within passed held
    split at ends
    · exact nomatch ends
    · cases ends
      exact kept
  | _ => exact nomatch reads

end RecordForm

/-! ## Parts -/

/-- What an entry says: the value that it means, or this if there is none. -/
def Json.Says {β : Type} (Means : Json → β → Prop) (otherwise : β) : Option Json → β → Prop
  | none, new => new = otherwise
  | some value, new => Means value new

theorem Json.Says.of_some {β : Type} {Means : Json → β → Prop} {otherwise new : β}
    {entry : Option Json} {value : Json} (found : entry = some value) (means : Means value new) :
    Json.Says Means otherwise entry new := by
  rw [found]
  exact means

/-- An entry that has to be there has a value that means something. -/
theorem Json.says_and_exists_iff {β : Type} {Means : Json → β → Prop} {otherwise new : β}
    {entry : Option Json} :
    (∃ value, entry = some value) ∧ Json.Says Means otherwise entry new ↔
      ∃ value, entry = some value ∧ Means value new := by
  cases entry <;> simp [Json.Says]

/-- An entry that any value may stand in is this value. -/
theorem Json.says_value_iff {otherwise new : Json} {entry : Option Json} :
    Json.Says Eq otherwise entry new ↔ new = entry.getD otherwise := by
  cases entry with
  | none => exact Iff.rfl
  | some value => exact eq_comm

/-- A part of a record that an entry of an object may set. -/
structure RecordPart (α : Type) where
  key : String
  Part : Type
  get : α → Part
  put : Part → α → α
  /-- Null says nothing about the part. -/
  ignoresNull : Bool
  /-- A value says that the part is this. -/
  Means : Json → Part → Prop

namespace RecordPart

variable {α : Type} (part : RecordPart α)

/-- What an entry says about the part, if it is there and says anything. -/
def heed : Option Json → Option Json
  | some .null => if part.ignoresNull then none else some .null
  | entry => entry

/-- What an entry says about the part can be understood. -/
def Legible (entry : Option Json) : Prop :=
  ∀ value, part.heed entry = some value → ∃ new, part.Means value new

/-- The part is what an entry says about it, or what it was at the start. -/
def Follows (entry : Option Json) (start record : α) : Prop :=
  match part.heed entry with
  | some value => part.Means value (part.get record)
  | none => part.get record = part.get start

/-- A value may turn a record into another one. -/
def Sets (value : Json) (record record' : α) : Prop :=
  match part.heed (some value) with
  | some value => ∃ new, part.Means value new ∧ record' = part.put new record
  | none => record' = record

/-- Neither part changes when the other one is set. -/
structure Apart (part other : RecordPart α) : Prop where
  left : ∀ new record, part.get (other.put new record) = part.get record
  right : ∀ new record, other.get (part.put new record) = other.get record

instance : Std.Symm (@Apart α) := ⟨fun _ _ apart => ⟨apart.right, apart.left⟩⟩

/-- A field sets the part to what the value says that is given. -/
structure Fits (given : Json → Prop) (field : FieldForm α) (part : RecordPart α) : Prop where
  key : field.key = part.key
  set_iff : ∀ value record record', given value →
    (field.set value record = .ok record' ↔ part.Sets value record record')

/-- The part that a value under a key says, be it null. -/
def saying {β : Type} (key : String) (Means : Json → β → Prop) (get : α → β) (put : β → α → α) :
    RecordPart α where
  key := key
  Part := β
  get := get
  put := put
  ignoresNull := false
  Means := Means

/-- The part that a field reads. -/
def of {β : Type} (key : String) (read : Reads β) (get : α → β) (put : β → α → α) :
    RecordPart α :=
  saying key (fun value new => read value = .ok new) get put

variable {part} {given : Json → Prop} {fields : List (FieldForm α)} {parts : List (RecordPart α)}

theorem heed_of_not_ignoresNull (counts : part.ignoresNull = false) (entry : Option Json) :
    part.heed entry = entry := by
  unfold heed
  split
  · rw [counts]
    rfl
  · rfl

/-- A field that has to make sense of null fits a part that does not ignore it. -/
theorem Fits.of_reads {β : Type} (part : RecordPart α) {presence : Presence} {read : Reads β}
    {put : β → α → α} (make : β → part.Part) (counts : part.ignoresNull = false)
    (means : ∀ value new, given value →
      (part.Means value new ↔ ∃ found, read value = .ok found ∧ new = make found))
    (puts : ∀ found record, put found record = part.put (make found) record) :
    Fits given (.of part.key presence read put) part where
  key := rfl
  set_iff value record record' isGiven := by
    simp only [FieldForm.of, map_eq_ok_iff, Sets, heed_of_not_ignoresNull counts,
      means value _ isGiven]
    constructor
    · rintro ⟨found, reads, rfl⟩
      exact ⟨_, ⟨found, reads, rfl⟩, puts found record⟩
    · rintro ⟨_, ⟨found, reads, rfl⟩, rfl⟩
      exact ⟨found, reads, (puts found record).symm⟩

/-- A field that reads what a value says fits the part that is said. -/
theorem Fits.saying {β : Type} {key : String} {presence : Presence} {read : Reads β}
    {Means : Json → β → Prop} {get : α → β} {put : β → α → α}
    (reads : ∀ value new, given value → (read value = .ok new ↔ Means value new)) :
    Fits given (.of key presence read put) (saying key Means get put) := by
  refine .of_reads (RecordPart.saying key Means get put) id rfl (fun value new isGiven => ?_)
    fun _ _ => rfl
  constructor
  · exact fun means => ⟨new, (reads value new isGiven).mpr means, rfl⟩
  · rintro ⟨_, isFound, rfl⟩
    exact (reads value _ isGiven).mp isFound

theorem Fits.of_read {β : Type} {key : String} {presence : Presence} {read : Reads β} {get : α → β}
    {put : β → α → α} : Fits given (.of key presence read put) (of key read get put) :=
  .saying fun _ _ _ => Iff.rfl

/-- The part is what the entry says. -/
theorem follows_saying_iff {β : Type} {key : String} {Means : Json → β → Prop} {get : α → β}
    {put : β → α → α} {entry : Option Json} {start record : α} :
    (saying key Means get put).Follows entry start record ↔
      Json.Says Means (get start) entry (get record) := by
  rw [Follows, heed_of_not_ignoresNull rfl]
  cases entry <;> rfl

section Of

variable {β : Type} {key : String} {read : Reads β} {get : α → β} {put : β → α → α}
  {entry : Option Json} {start record : α}

/-- A part is what is read from its value. -/
theorem follows_some_iff {value : Json} (found : entry = some value) :
    (of key read get put).Follows entry start record ↔ read value = .ok (get record) := by
  rw [of, follows_saying_iff, found]
  rfl

/-- A part that nothing is said about is what it was. -/
theorem follows_none_iff (found : entry = none) :
    (of key read get put).Follows entry start record ↔ get record = get start := by
  rw [of, follows_saying_iff, found]
  rfl

end Of

/-- What is heeded is what stands there. -/
theorem eq_of_heed {entry : Option Json} {value : Json} (heeded : part.heed entry = some value) :
    entry = some value := by
  unfold heed at heeded
  split at heeded
  · split at heeded
    · exact nomatch heeded
    · exact heeded
  · exact heeded

theorem Follows.legible {entry : Option Json} {start record : α}
    (follows : part.Follows entry start record) : part.Legible entry := by
  intro value heeded
  rw [Follows, heeded] at follows
  exact ⟨_, follows⟩

/-- A part that nothing is said about follows any record that has the same. -/
theorem Follows.of_get {entry : Option Json} {start next record : α}
    (same : part.get next = part.get start) :
    part.Follows entry next record ↔ part.Follows entry start record := by
  unfold Follows
  split
  · exact Iff.rfl
  · rw [same]

theorem exists_sets {value : Json} (legible : part.Legible (some value)) (record : α) :
    ∃ record', part.Sets value record record' := by
  unfold Sets
  split
  case h_1 given heeded =>
    obtain ⟨new, means⟩ := legible given heeded
    exact ⟨_, new, means, rfl⟩
  case h_2 => exact ⟨record, rfl⟩

/-- A part that a value has set, and nothing else does, is what the value says. -/
theorem Follows.of_sets (get_put : ∀ new record, part.get (part.put new record) = new)
    {value : Json} {start next record : α} (sets : part.Sets value start next)
    (same : part.get record = part.get next) : part.Follows (some value) start record := by
  unfold Sets at sets
  unfold Follows
  split at sets
  · obtain ⟨new, means, rfl⟩ := sets
    rwa [same, get_put]
  · rw [same, sets]

/-- An entry says one thing about a part. -/
theorem Fits.follows_unique {field : FieldForm α} (fits : Fits given field part)
    (get_put : ∀ new record, part.get (part.put new record) = new) {entry : Option Json}
    (within : ∀ value, entry = some value → given value) {start record record' : α}
    (follows : part.Follows entry start record) (follows' : part.Follows entry start record') :
    part.get record = part.get record' := by
  unfold Follows at follows follows'
  split at follows
  case h_1 value heeded =>
    obtain rfl := eq_of_heed heeded
    rw [heeded] at follows'
    have sets (new : part.Part) (means : part.Means value new) :
        field.set value start = .ok (part.put new start) := by
      rw [fits.set_iff value _ _ (within value rfl), Sets, heeded]
      exact ⟨new, means, rfl⟩
    have same : part.put (part.get record) start = part.put (part.get record') start :=
      Except.ok.inj ((sets _ follows).symm.trans (sets _ follows'))
    rw [← get_put (part.get record) start, same, get_put]
  case h_2 silent =>
    rw [silent] at follows'
    exact follows.trans follows'.symm

/-- The first field with the key of a part sets this part. -/
theorem exists_field (fit : List.Forall₂ (Fits given) fields parts)
    (distinct : (parts.map RecordPart.key).Nodup) (member : part ∈ parts) :
    ∃ field, fields.find? (fun field => field.key = part.key) = some field ∧
      Fits given field part := by
  induction fit with
  | nil => exact nomatch member
  | @cons field first fields parts fits _ ih =>
    rw [List.map_cons, List.nodup_cons] at distinct
    rcases List.mem_cons.mp member with rfl | member
    · exact ⟨field, by simp [fits.key], fits⟩
    · have differs : field.key ≠ part.key := by
        rw [fits.key]
        intro same
        exact distinct.1 (List.mem_map.mpr ⟨part, member, same.symm⟩)
      obtain ⟨found, isFirst, fits⟩ := ih distinct.2 member
      exact ⟨found, by simp [differs, isFirst], fits⟩

theorem keys_eq (fit : List.Forall₂ (Fits given) fields parts) :
    fields.map FieldForm.key = parts.map RecordPart.key := by
  induction fit with
  | nil => rfl
  | cons fits _ ih => rw [List.map_cons, List.map_cons, fits.key, ih]

end RecordPart

namespace RecordForm

variable {α β : Type}

/-- The fields of a form set these parts, each its own, to what the values say that are given. -/
structure Splits (form : RecordForm α) (given : Json → Prop) (parts : List (RecordPart α)) :
    Prop where
  fit : List.Forall₂ (RecordPart.Fits given) form.fields parts
  distinct : (parts.map RecordPart.key).Nodup
  get_put : ∀ part ∈ parts, ∀ new record, part.get (part.put new record) = new
  apart : parts.Pairwise RecordPart.Apart

/-- Parts describe the form of a record: no field has to be there, and with the rest that no field
sets they make the record. -/
structure Describes (form : RecordForm α) (given : Json → Prop) (parts : List (RecordPart α))
    (rest : α → β) : Prop extends form.Splits given parts where
  optional : ∀ field ∈ form.fields, field.presence ≠ .always
  rest_put : ∀ part ∈ parts, ∀ new record, rest (part.put new record) = rest record
  ext : ∀ record record', rest record = rest record' →
    (∀ part ∈ parts, part.get record = part.get record') → record = record'

/-- Parts that make the whole record describe a form. -/
theorem Describes.of_forall {form : RecordForm α} {given : Json → Prop}
    {parts : List (RecordPart α)} (fit : List.Forall₂ (RecordPart.Fits given) form.fields parts)
    (optional : ∀ field ∈ form.fields, field.presence ≠ .always)
    (distinct : (parts.map RecordPart.key).Nodup)
    (get_put : parts.Forall fun part => ∀ new record, part.get (part.put new record) = new)
    (apart : parts.Pairwise RecordPart.Apart)
    (ext : ∀ record record', (parts.Forall fun part => part.get record = part.get record') →
      record = record') : form.Describes given parts fun _ => () where
  fit := fit
  optional := optional
  distinct := distinct
  get_put := List.forall_iff_forall_mem.mp get_put
  apart := apart
  rest_put _ _ _ _ := rfl
  ext record record' _ alike := ext record record' (List.forall_iff_forall_mem.mpr alike)

/-- A form that is closed has a field for every entry. -/
def Knows (form : RecordForm α) (entries : List (String × Json)) : Prop :=
  form.isClosed = true → ∀ entry ∈ entries, entry.1 ∈ form.keys

variable {form : RecordForm α} {given : Json → Prop} {parts : List (RecordPart α)}
  {part : RecordPart α} {start next record : α} {value : Json} {entries : List (String × Json)}

theorem knows_cons {entry : String × Json} :
    form.Knows (entry :: entries) ↔
      (form.isClosed = true → entry.1 ∈ form.keys) ∧ form.Knows entries := by
  simp only [Knows, List.forall_mem_cons, imp_and]

/-- An entry with another key changes nothing, and may be an error. -/
theorem setEntry_unknown_iff {key : String} (unknown : key ∉ form.keys) :
    form.setEntry start (key, value) = .ok next ↔ form.isClosed = false ∧ next = start := by
  have none : form.fields.find? (fun field => field.key = key) = none := by
    simp only [List.find?_eq_none, decide_eq_true_eq]
    intro field member same
    exact unknown (List.mem_map.mpr ⟨field, member, same⟩)
  rw [setEntry, none]
  cases form.isClosed with
  | true => simp
  | false => simp [eq_comm]

/-- The fields that have to be there are there. -/
theorem absent_eq_nil_iff : form.absent entries = [] ↔
    ∀ field ∈ form.fields, field.presence = .always →
      ∃ value, entries.lookup field.key = some value := by
  simp only [absent, List.map_eq_nil_iff, List.filter_eq_nil_iff, decide_eq_true_eq, not_and,
    Option.isNone_iff_eq_none, ← ne_eq, Option.ne_none_iff_exists']

theorem readEntries_eq_ok_iff : form.readEntries start entries = .ok record ↔
    entries.foldlM form.setEntry start = .ok record ∧ form.absent entries = [] := by
  rw [readEntries, bind_eq_ok_iff]
  cases form.absent entries with
  | nil => simp [pure, Except.pure]
  | cons key keys => simp [throw, throwThe, MonadExceptOf.throw]

namespace Splits

theorem keys (splits : form.Splits given parts) : form.keys = parts.map RecordPart.key :=
  RecordPart.keys_eq splits.fit

theorem key_mem (splits : form.Splits given parts) (member : part ∈ parts) :
    part.key ∈ form.keys := by
  rw [splits.keys]
  exact List.mem_map.mpr ⟨part, member, rfl⟩

/-- A key of the form is that of a part. -/
theorem exists_part (splits : form.Splits given parts) {key : String}
    (known : key ∈ form.keys) : ∃ part ∈ parts, part.key = key := by
  rw [splits.keys] at known
  exact List.mem_map.mp known

/-- Parts with one key are one part. -/
theorem eq_of_key (splits : form.Splits given parts) {other : RecordPart α}
    (member : part ∈ parts) (member' : other ∈ parts) (same : part.key = other.key) :
    part = other :=
  List.inj_on_of_nodup_map splits.distinct member member' same

/-- A value sets the part it is about and leaves the others. -/
theorem get_sets (splits : form.Splits given parts) {other : RecordPart α}
    (member : part ∈ parts) (member' : other ∈ parts) (differs : other.key ≠ part.key)
    (sets : part.Sets value start next) : other.get next = other.get start := by
  have differs' : other ≠ part := by
    rintro rfl
    exact differs rfl
  unfold RecordPart.Sets at sets
  split at sets
  · obtain ⟨new, -, rfl⟩ := sets
    exact (splits.apart.forall member' member differs').left new start
  · rw [sets]

/-- An entry with the key of a part sets the part. -/
theorem setEntry_iff (splits : form.Splits given parts) (member : part ∈ parts)
    (isGiven : given value) :
    form.setEntry start (part.key, value) = .ok next ↔ part.Sets value start next := by
  obtain ⟨field, isFirst, fits⟩ := RecordPart.exists_field splits.fit splits.distinct member
  rw [setEntry, isFirst]
  exact fits.set_iff value start next isGiven

/-- An entry says one thing about a part. -/
theorem follows_unique (splits : form.Splits given parts) (member : part ∈ parts)
    {entry : Option Json} (within : ∀ value, entry = some value → given value)
    {record record' : α} (follows : part.Follows entry start record)
    (follows' : part.Follows entry start record') : part.get record = part.get record' := by
  obtain ⟨field, -, fits⟩ := RecordPart.exists_field splits.fit splits.distinct member
  exact fits.follows_unique (splits.get_put part member) within follows follows'

/-- What a first entry says is set first, and what others say is set then. -/
theorem follows_cons (splits : form.Splits given parts) (member : part ∈ parts)
    (later : entries.lookup part.key = none) (sets : part.Sets value start next)
    (follows : ∀ other ∈ parts, other.Follows (entries.lookup other.key) next record) :
    ∀ other ∈ parts,
      other.Follows (((part.key, value) :: entries).lookup other.key) start record := by
  intro other member'
  have follows := follows other member'
  by_cases differs : other.key = part.key
  · obtain rfl := splits.eq_of_key member' member differs
    rw [later] at follows
    rw [List.lookup_cons_self]
    exact .of_sets (splits.get_put other member') sets follows
  · rw [Json.lookup_cons_of_ne differs]
    exact (RecordPart.Follows.of_get (splits.get_sets member member' differs sets)).mp follows

/-- **Entries that are read one after another make of each part what they say about it.** -/
theorem of_foldlM (splits : form.Splits given parts) (once : (entries.map Prod.fst).Nodup)
    (within : ∀ entry ∈ entries, given entry.2)
    (reads : entries.foldlM form.setEntry start = .ok record) :
    form.Knows entries ∧ ∀ part ∈ parts, part.Follows (entries.lookup part.key) start record := by
  induction entries generalizing start with
  | nil =>
    cases reads
    exact ⟨nofun, fun _ _ => rfl⟩
  | cons entry entries ih =>
    obtain ⟨key, value⟩ := entry
    rw [List.map_cons, List.nodup_cons] at once
    obtain ⟨isGiven, within⟩ := List.forall_mem_cons.mp within
    rw [List.foldlM_cons] at reads
    obtain ⟨next, sets, reads⟩ := bind_eq_ok_iff.mp reads
    obtain ⟨knows, follows⟩ := ih once.2 within reads
    rw [knows_cons]
    by_cases known : key ∈ form.keys
    · obtain ⟨part, member, rfl⟩ := splits.exists_part known
      rw [splits.setEntry_iff member isGiven] at sets
      have later : entries.lookup part.key = none := Json.lookup_eq_none once.1
      exact ⟨⟨fun _ => known, knows⟩, splits.follows_cons member later sets follows⟩
    · obtain ⟨isOpen, rfl⟩ := (setEntry_unknown_iff known).mp sets
      refine ⟨⟨fun isClosed => (nomatch isOpen.symm.trans isClosed), knows⟩, fun part member => ?_⟩
      have differs : part.key ≠ key := by
        rintro rfl
        exact known (splits.key_mem member)
      rw [Json.lookup_cons_of_ne differs]
      exact follows part member

/-- **Entries can be read exactly if what they say about each part can be understood.** -/
theorem exists_foldlM_iff (splits : form.Splits given parts)
    (once : (entries.map Prod.fst).Nodup) (within : ∀ entry ∈ entries, given entry.2) :
    (∃ record, entries.foldlM form.setEntry start = .ok record) ↔
      form.Knows entries ∧ ∀ part ∈ parts, part.Legible (entries.lookup part.key) := by
  constructor
  · rintro ⟨record, reads⟩
    obtain ⟨knows, follows⟩ := splits.of_foldlM once within reads
    exact ⟨knows, fun part member => (follows part member).legible⟩
  · rintro ⟨knows, legible⟩
    induction entries generalizing start with
    | nil => exact ⟨start, rfl⟩
    | cons entry entries ih =>
      obtain ⟨key, value⟩ := entry
      rw [List.map_cons, List.nodup_cons] at once
      obtain ⟨isGiven, within⟩ := List.forall_mem_cons.mp within
      obtain ⟨known, knows⟩ := knows_cons.mp knows
      -- Whatever the first entry makes of the start, the others can be understood as before.
      have later : ∀ part ∈ parts, part.Legible (entries.lookup part.key) := by
        intro part member
        by_cases differs : part.key = key
        · subst differs
          rw [Json.lookup_eq_none once.1]
          exact nofun
        · have rest := legible part member
          rwa [Json.lookup_cons_of_ne differs] at rest
      obtain ⟨next, sets⟩ : ∃ next, form.setEntry start (key, value) = .ok next := by
        by_cases isKey : key ∈ form.keys
        · obtain ⟨part, member, rfl⟩ := splits.exists_part isKey
          have own := legible part member
          rw [List.lookup_cons_self] at own
          obtain ⟨next, sets⟩ := RecordPart.exists_sets own start
          exact ⟨next, (splits.setEntry_iff member isGiven).mpr sets⟩
        · have isOpen : form.isClosed = false :=
            Bool.eq_false_iff.mpr fun isClosed => isKey (known isClosed)
          exact ⟨start, (setEntry_unknown_iff isKey).mpr ⟨isOpen, rfl⟩⟩
      obtain ⟨record, reads⟩ : ∃ record, entries.foldlM form.setEntry next = .ok record :=
        ih once.2 within knows later
      exact ⟨record, by rw [List.foldlM_cons, sets]; exact reads⟩

/-- **What is made of an open form depends on the parts alone**, so it is made of any record
whose parts are what the entries say, if what has to be there is there. -/
theorem exists_readEntries_iff (splits : form.Splits given parts) (isOpen : form.isClosed = false)
    (once : (entries.map Prod.fst).Nodup) (within : ∀ entry ∈ entries, given entry.2)
    {make : α → β} {result : β} (ofParts : ∀ record record',
      (∀ part ∈ parts, part.get record = part.get record') → make record = make record') :
    (∃ record, form.readEntries start entries = .ok record ∧ result = make record) ↔
      form.absent entries = [] ∧ ∃ record,
        (∀ part ∈ parts, part.Follows (entries.lookup part.key) start record) ∧
          result = make record := by
  simp only [readEntries_eq_ok_iff]
  constructor
  · rintro ⟨record, ⟨reads, complete⟩, made⟩
    exact ⟨complete, record, (splits.of_foldlM once within reads).2, made⟩
  · rintro ⟨complete, record, follows, made⟩
    have knows : form.Knows entries := fun isClosed => (nomatch isOpen.symm.trans isClosed)
    obtain ⟨record', reads⟩ := (splits.exists_foldlM_iff once within).mpr
      ⟨knows, fun part member => (follows part member).legible⟩
    refine ⟨record', ⟨reads, complete⟩, made.trans (ofParts _ _ fun part member => ?_)⟩
    exact splits.follows_unique member (fun _ => Json.Within.lookup within) (follows part member)
      ((splits.of_foldlM once within reads).2 part member)

end Splits

namespace Describes

variable {rest : α → β}

theorem rest_setEntry (describes : form.Describes given parts rest) {entry : String × Json}
    (isGiven : given entry.2) (sets : form.setEntry start entry = .ok next) :
    rest next = rest start := by
  obtain ⟨key, value⟩ := entry
  by_cases known : key ∈ form.keys
  · obtain ⟨part, member, rfl⟩ := describes.exists_part known
    rw [describes.setEntry_iff member isGiven, RecordPart.Sets] at sets
    split at sets
    · obtain ⟨new, -, rfl⟩ := sets
      exact describes.rest_put part member new start
    · rw [sets]
  · rw [((setEntry_unknown_iff known).mp sets).2]

/-- No entry changes the rest. -/
theorem rest_foldlM (describes : form.Describes given parts rest)
    (within : ∀ entry ∈ entries, given entry.2)
    (reads : entries.foldlM form.setEntry start = .ok record) : rest record = rest start := by
  induction entries generalizing start with
  | nil =>
    cases reads
    rfl
  | cons entry entries ih =>
    obtain ⟨isGiven, within⟩ := List.forall_mem_cons.mp within
    rw [List.foldlM_cons] at reads
    obtain ⟨next, sets, reads⟩ := bind_eq_ok_iff.mp reads
    exact (ih within reads).trans (describes.rest_setEntry isGiven sets)

/-- No field has to be there. -/
theorem readEntries_eq (describes : form.Describes given parts rest)
    (entries : List (String × Json)) :
    form.readEntries start entries = entries.foldlM form.setEntry start := by
  have none : form.absent entries = [] := absent_eq_nil_iff.mpr fun field member isAlways =>
    (describes.optional field member isAlways).elim
  simp only [readEntries, none]
  exact bind_pure _

/-- **Entries are read as the record with the rest of the start whose parts are what they say.** -/
theorem readEntries_iff (describes : form.Describes given parts rest)
    (once : (entries.map Prod.fst).Nodup) (within : ∀ entry ∈ entries, given entry.2) :
    form.readEntries start entries = .ok record ↔
      form.Knows entries ∧ rest record = rest start ∧
        ∀ part ∈ parts, part.Follows (entries.lookup part.key) start record := by
  rw [describes.readEntries_eq]
  constructor
  · intro reads
    obtain ⟨knows, follows⟩ := describes.of_foldlM once within reads
    exact ⟨knows, describes.rest_foldlM within reads, follows⟩
  · rintro ⟨knows, same, follows⟩
    obtain ⟨record', reads⟩ := (describes.exists_foldlM_iff once within).mpr
      ⟨knows, fun part member => (follows part member).legible⟩
    have same' : rest record' = rest start := describes.rest_foldlM within reads
    have follows' := (describes.of_foldlM once within reads).2
    obtain rfl := describes.ext record' record (same'.trans same.symm) fun part member =>
      describes.follows_unique member (fun _ => Json.Within.lookup within)
        (follows' part member) (follows part member)
    exact reads

end Describes

variable {rest : α → β} {anySurplus : Bool} {table : Json.Table}

/-- A form that is closed has a field for every key. -/
def KnowsKeys (form : RecordForm α) (table : Json.Table) : Prop :=
  form.isClosed = true → ∀ key ∈ table, key ∈ form.keys

theorem knows_toList_iff : form.Knows table.toList ↔ form.KnowsKeys table := by
  have keys (key : String) : key ∈ table ↔ ∃ value, (key, value) ∈ table.toList := by
    simp only [Json.Table.mem_toList_iff, ← Option.isSome_iff_exists,
      Std.ExtTreeMap.mem_iff_isSome_getElem?]
  simp only [Knows, KnowsKeys, keys, Prod.forall, forall_exists_index]

/-- **What an object is read as.** -/
theorem read_iff (describes : form.Describes given parts rest)
    (within : (Json.ofTable table).Within given) :
    form.read start anySurplus (.ofTable table) = .ok record ↔
      form.KnowsKeys table ∧ rest record = rest start ∧
        ∀ part ∈ parts, part.Follows table[part.key]? start record := by
  show form.readEntries start table.toList = .ok record ↔ _
  rw [describes.readEntries_iff table.nodup_keys within, knows_toList_iff]
  simp only [Json.Table.lookup_toList]

end RecordForm

end ScreenPilot
