import ScreenPilot.Proofs.Json.Records
import ScreenPilot.Proofs.Toml.Deletions

/-!
# Records that are read from tables

When keys are deleted from a table that a record is read from, the parts that they are about are
what they were at the start, and the others stay (`Resets`). A part that is read from a plain value
is there or not (`resets_of_plain`); one that is a record itself may lose some of its own parts.
So the parts of a record say what becomes of the whole (`resets_table`, `resets_section`).
-/

set_option autoImplicit false

namespace ScreenPilot

namespace Toml

/-! ## Tables as objects -/

theorem entriesToJson_eq (entries : List (String × Toml)) :
    entriesToJson entries = entries.map fun entry => (entry.1, entry.2.toJson) := by
  induction entries with
  | nil => rfl
  | cons entry entries ih => exact congrArg (_ :: ·) ih

theorem itemsToJson_eq (items : List Toml) : itemsToJson items = items.map toJson := by
  induction items with
  | nil => rfl
  | cons item items ih => exact congrArg (_ :: ·) ih

theorem keys_entriesToJson (entries : List (String × Toml)) :
    (entriesToJson entries).map Prod.fst = entries.map Prod.fst := by
  rw [entriesToJson_eq, List.map_map]
  rfl

theorem lookup_entriesToJson (entries : List (String × Toml)) (key : String) :
    (entriesToJson entries).lookup key = (entries.lookup key).map toJson := by
  induction entries with
  | nil => rfl
  | cons entry entries ih =>
    obtain ⟨other, value⟩ := entry
    rw [entriesToJson, List.lookup_cons, List.lookup_cons, ih]
    split <;> rfl

/-- A value that a sound table may hold. -/
def Given (value : Json) : Prop := ∃ given : Toml, given.Sound ∧ given.toJson = value

/-- What stands in a sound value is sound. -/
theorem Sound.within {value : Toml} (sound : value.Sound) : value.toJson.Within Given := by
  cases sound with
  | moment text => exact List.forall_mem_singleton.mpr ⟨.string text, .string text, rfl⟩
  | array each =>
    rw [toJson, itemsToJson_eq]
    exact List.forall_mem_map.mpr fun item member => ⟨item, each item member, rfl⟩
  | table _ each =>
    rw [toJson, entriesToJson_eq]
    exact List.forall_mem_map.mpr fun entry member => ⟨entry.2, each entry member, rfl⟩
  | _ => trivial

/-! ## Values -/

/-- What can be read is neither a table nor an array. -/
def ReadsPlain {β : Type} (read : Reads β) : Prop :=
  ∀ (value : Toml) (given : β), read value.toJson = .ok given → value.IsPlain

/-- When keys are deleted, what is read is reset, as these keys have it. -/
def Resets {β : Type} (read : Reads β) (reset : (List String → Bool) → β → β) : Prop :=
  ∀ before after : Toml, before.Sound → before.Deletion after → ∀ given : β,
    read before.toJson = .ok given →
    read after.toJson = .ok (reset (before.deleted after) given)

theorem resets_of_plain {β : Type} {read : Reads β} (plain : ReadsPlain read) :
    Resets read fun _ given => given := by
  intro before after _ deletion given reads
  rw [deletion.eq_of_isPlain (plain before given reads)]
  exact reads

/-! ## Parts -/

section Parts

variable {α β : Type} {start : α} {reset : (List String → Bool) → α → α}

/-- When keys are deleted from a table, what is left says of the record that is reset what the
table says of the record. -/
def Carries (start : α) (reset : (List String → Bool) → α → α) (part : RecordPart α) : Prop :=
  ∀ entries entries' : List (String × Toml), Sound (.table entries) →
    Deletion (.table entries) (.table entries') → ∀ record : α,
    part.Follows ((entriesToJson entries).lookup part.key) start record →
    part.Follows ((entriesToJson entries').lookup part.key) start
      (reset (deleted (.table entries) (.table entries')) record)

/-- A part is what it was at the start if its key is deleted, and else what becomes of it when
keys are deleted from the value. -/
theorem carries_of {key : String} {read : Reads β} {get : α → β} {put : β → α → α}
    {inner : (List String → Bool) → β → β} (resets : Resets read inner)
    (stays : ∀ gone, inner gone (get start) = get start)
    (get_reset : ∀ gone record, get (reset gone record) =
      if gone [key] then get start else inner (fun path => gone (key :: path)) (get record)) :
    Carries start reset (.of key read get put) := by
  intro entries entries' sound deletion record follows
  obtain ⟨_, same, keys, each⟩ := deletion.exists_table
  cases same
  cases sound with | table once sounds => ?_
  show (RecordPart.of key read get put).Follows ((entriesToJson entries').lookup key) start _
  change (RecordPart.of key read get put).Follows ((entriesToJson entries).lookup key) start _
    at follows
  rw [lookup_entriesToJson] at follows ⊢
  cases found : entries.lookup key with
  | none =>
    have gone : entries'.lookup key = none := by
      rw [lookup_eq_none_iff] at found ⊢
      exact fun member => found (keys.subset member)
    rw [found] at follows
    have same : get record = get start := (RecordPart.follows_none_iff rfl).mp follows
    refine (RecordPart.follows_none_iff (by rw [gone]; rfl)).mpr ?_
    rw [get_reset, same, stays, ite_self]
  | some value =>
    rw [found] at follows
    have reads : read value.toJson = .ok (get record) :=
      (RecordPart.follows_some_iff rfl).mp follows
    cases found' : entries'.lookup key with
    | none =>
      refine (RecordPart.follows_none_iff rfl).mpr ?_
      rw [get_reset]
      exact if_pos (deleted_of_lookup_eq_none found found')
    | some value' =>
      have isSound : value.Sound := sounds (key, value) (mem_of_lookup found)
      have kept : deleted (.table entries) (.table entries') [key] = false :=
        deleted_cons found found' []
      have below : (fun path => deleted (.table entries) (.table entries') (key :: path)) =
          deleted value value' := funext (deleted_cons found found')
      refine (RecordPart.follows_some_iff rfl).mpr ?_
      rw [get_reset, kept, below]
      exact resets value value' isSound (each key value value' found found') _ reads

/-- A part that is read from a plain value is what it was at the start if its key is deleted. -/
theorem carries_plain {key : String} {read : Reads β} {get : α → β} {put : β → α → α}
    (plain : ReadsPlain read)
    (get_reset : ∀ gone record,
      get (reset gone record) = if gone [key] then get start else get record) :
    Carries start reset (.of key read get put) :=
  carries_of (resets_of_plain plain) (fun _ => rfl) get_reset

end Parts

/-! ## Records -/

section Records

variable {α : Type} {form : RecordForm α} {parts : List (RecordPart α)} {start : α}
  {reset : (List String → Bool) → α → α}

/-- Entries say what a record is if they say it of every part. -/
theorem readEntries_of_follows (describes : form.Describes (fun _ => True) parts fun _ => ())
    (isOpen : form.isClosed = false) {entries : List (String × Toml)}
    (once : (entries.map Prod.fst).Nodup) {record : α}
    (follows : ∀ part ∈ parts,
      part.Follows ((entriesToJson entries).lookup part.key) start record) :
    form.readEntries start (entriesToJson entries) = .ok record := by
  rw [describes.readEntries_iff (keys_entriesToJson entries ▸ once) fun _ _ => trivial]
  exact ⟨fun isClosed => (nomatch isOpen.symm.trans isClosed), rfl, follows⟩

/-- **When keys are deleted from a table, the record is reset.** -/
theorem resets_table (describes : form.Describes (fun _ => True) parts fun _ => ())
    (isOpen : form.isClosed = false) (each : parts.Forall (Carries start reset))
    {entries entries' : List (String × Toml)} (sound : Sound (.table entries))
    (deletion : Deletion (.table entries) (.table entries')) {record : α}
    (reads : form.readEntries start (entriesToJson entries) = .ok record) :
    form.readEntries start (entriesToJson entries') =
      .ok (reset (deleted (.table entries) (.table entries')) record) := by
  obtain ⟨_, same, keys, -⟩ := deletion.exists_table
  cases same
  have once : (entries.map Prod.fst).Nodup := by cases sound with | table once => exact once
  rw [describes.readEntries_iff (keys_entriesToJson entries ▸ once) fun _ _ => trivial] at reads
  refine readEntries_of_follows describes isOpen (once.sublist keys) fun part member => ?_
  exact List.forall_iff_forall_mem.mp each part member entries entries' sound deletion record
    (reads.2.2 part member)

/-- What a field is set to can only be read from a plain value. -/
def SetsPlain (field : FieldForm α) : Prop :=
  ∀ (value : Toml) (record record' : α),
    field.set value.toJson record = .ok record' → value.IsPlain

theorem setsPlain_of {β : Type} {key : String} {presence : Presence} {read : Reads β}
    {put : β → α → α} (plain : ReadsPlain read) : SetsPlain (.of key presence read put) := by
  intro value record record' set
  obtain ⟨given, reads, -⟩ := map_eq_ok_iff.mp set
  exact plain value given reads

/-- A record that is read from plain items does not notice what else is in the array. -/
theorem readItems_deletion {fields : List (FieldForm α)} (plain : ∀ field ∈ fields, SetsPlain field)
    {items items' : List Toml} (left : ItemDeletion items items') {position : Nat}
    {before record : α}
    (reads : form.readItems position fields (itemsToJson items) before = .ok record) :
    form.readItems position fields (itemsToJson items') before = .ok record := by
  induction fields generalizing items items' position before with
  | nil =>
    rw [RecordForm.readItems] at reads ⊢
    exact reads
  | cons field fields ih =>
    obtain ⟨isPlain, plain⟩ := List.forall_mem_cons.mp plain
    cases left with
    | nil => exact reads
    | cons first more =>
      rw [itemsToJson, RecordForm.readItems, bind_eq_ok_iff] at reads ⊢
      obtain ⟨next, set, reads⟩ := reads
      obtain rfl := first.eq_of_isPlain (isPlain _ _ _ set)
      exact ⟨next, set, ih plain more reads⟩
    | table entries more =>
      rw [itemsToJson, RecordForm.readItems, bind_eq_ok_iff] at reads
      obtain ⟨next, set, -⟩ := reads
      exact (isPlain _ _ _ set).elim

/-- **When keys are deleted, a record of plain parts is reset.** -/
theorem resets_section (describes : form.Describes (fun _ => True) parts fun _ => ())
    (isOpen : form.isClosed = false) (each : parts.Forall (Carries start reset))
    (plain : form.fields.Forall SetsPlain)
    (kept : ∀ record, reset (fun _ => false) record = record) :
    Resets (form.read start true) reset := by
  intro before after sound deletion record reads
  cases deletion with
  | same =>
    rw [funext (deleted_self before), kept]
    exact reads
  | @array items items' left =>
    rw [funext (deleted_array items (.array items')), kept]
    obtain ⟨last, passed, ends⟩ := bind_eq_ok_iff.mp reads
    refine bind_eq_ok_iff.mpr ⟨last, ?_, ?_⟩
    · exact readItems_deletion (List.forall_iff_forall_mem.mp plain) left passed
    · rw [if_neg fun surplus => surplus.2 rfl] at ends ⊢
      exact ends
  | table keys inner => exact resets_table describes isOpen each sound (.table keys inner) reads

end Records

end Toml

end ScreenPilot
