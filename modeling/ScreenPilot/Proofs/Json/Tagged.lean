import ScreenPilot.Json.Union
import ScreenPilot.Proofs.Json.Texts

/-!
# Documents that are tagged

A document of a union gives a kind and, it may be, contents (`Json.Gives`): in an object they stand
under `type` and `param`, in an array one after the other. So a tagged document is read as what its
contents say that is of the kind that it gives (`Decode.tagged_iff_gives`). What the contents say
is for each union to tell.
-/

set_option autoImplicit false

namespace ScreenPilot

namespace Json

/-- A tag that names a kind. -/
inductive Tags (kind : String) : Json → Prop where
  | name : Tags kind (.string kind)
  | variant : Tags kind (.object [(kind, .null)])

/-- A document gives a kind, and contents if there are any. -/
inductive Gives (kind : String) : Json → Option Json → Prop where
  | object {entries : List (String × Json)} {tag : Json}
      (tagged : entries.lookup "type" = some tag) (names : tag.Tags kind) :
      Gives kind (.object entries) (entries.lookup "param")
  | array (contents : Json) : Gives kind (.array [.string kind, contents]) (some contents)

/-- The contents that a sound document gives are sound. -/
theorem Gives.sound {kind : String} {value contents : Json}
    (gives : value.Gives kind (some contents)) (sound : value.Sound) : contents.Sound := by
  generalize given : some contents = there at gives
  cases gives with
  | object => exact sound.within.lookup given.symm
  | array =>
    cases given
    exact sound.within contents (by simp)

end Json

namespace Decode

theorem knownName_eq_ok_iff {known : List String} {name kind : String} :
    knownName known name = .ok kind ↔ kind ∈ known ∧ name = kind := by
  rw [knownName]
  split
  · rename_i isKnown
    rw [Except.ok.injEq]
    exact ⟨fun same => ⟨same ▸ isKnown, same⟩, And.right⟩
  · rename_i unknown
    refine ⟨nofun, fun ⟨isKnown, same⟩ => (unknown (same ▸ isKnown)).elim⟩

theorem variantName_eq_ok_iff {known : List String} {tag : Json} {kind : String} :
    variantName known tag = .ok kind ↔ kind ∈ known ∧ tag.Tags kind := by
  constructor
  · intro reads
    unfold variantName at reads
    split at reads
    · obtain ⟨isKnown, rfl⟩ := knownName_eq_ok_iff.mp reads
      exact ⟨isKnown, .name⟩
    · rename_i name contents
      obtain ⟨middle, reads, ends⟩ := bind_eq_ok_iff.mp reads
      obtain ⟨isKnown, rfl⟩ := knownName_eq_ok_iff.mp reads
      split at ends
      · cases ends
        exact ⟨isKnown, .variant⟩
      · exact nomatch ends
    · exact nomatch reads
    · exact nomatch reads
  · rintro ⟨isKnown, tags⟩
    have known : knownName known kind = .ok kind := knownName_eq_ok_iff.mpr ⟨isKnown, rfl⟩
    cases tags with
    | name => exact known
    | variant => exact bind_eq_ok_iff.mpr ⟨kind, known, rfl⟩

theorem leadingName_eq_ok_iff {known : List String} {tag : Json} {kind : String} :
    leadingName known tag = .ok kind ↔ kind ∈ known ∧ tag = .string kind := by
  cases tag with
  | string name => simp [leadingName, knownName_eq_ok_iff]
  | _ => simp [leadingName]

/-- **What a tagged document is read as.** -/
theorem tagged_eq_ok_iff {α : Type} {union : String} {known : List String}
    {contents : String → Option Json → ReadResult α} {value : Json} {result : α} :
    tagged union known contents value = .ok result ↔
      ∃ kind given, kind ∈ known ∧ value.Gives kind given ∧ contents kind given = .ok result := by
  constructor
  · intro reads
    unfold tagged at reads
    split at reads
    · split at reads
      · exact nomatch reads
      · rename_i tag tagged
        obtain ⟨kind, named, reads⟩ := bind_eq_ok_iff.mp reads
        obtain ⟨isKnown, tags⟩ := variantName_eq_ok_iff.mp named
        exact ⟨kind, _, isKnown, .object tagged tags, reads⟩
    · exact nomatch reads
    · rename_i tag items
      obtain ⟨kind, named, rest⟩ := bind_eq_ok_iff.mp reads
      obtain ⟨isKnown, rfl⟩ := leadingName_eq_ok_iff.mp named
      cases items with
      | nil => exact nomatch rest
      | cons item surplus =>
        obtain ⟨given, ends, rest⟩ := bind_eq_ok_iff.mp rest
        split at rest
        · rename_i isLast
          cases rest
          rw [List.isEmpty_iff.mp isLast]
          exact ⟨kind, _, isKnown, .array item, ends⟩
        · exact nomatch rest
    · exact nomatch reads
  · rintro ⟨kind, given, isKnown, gives, ends⟩
    cases gives with
    | object tagged tags =>
      have named := variantName_eq_ok_iff.mpr ⟨isKnown, tags⟩
      simp only [Decode.tagged, tagged]
      exact bind_eq_ok_iff.mpr ⟨kind, named, ends⟩
    | array item =>
      have named : leadingName known (.string kind) = .ok kind :=
        leadingName_eq_ok_iff.mpr ⟨isKnown, rfl⟩
      refine bind_eq_ok_iff.mpr ⟨kind, named, ?_⟩
      exact bind_eq_ok_iff.mpr ⟨result, ends, rfl⟩

/-- **A tagged document is read as what has the kind that it gives and the contents it gives**, if
contents of a kind are read as what has this kind and these contents. -/
theorem tagged_iff_gives {α : Type} {union : String} {known : List String}
    {contents : String → Option Json → ReadResult α} {kind : α → String}
    {Tells : Option Json → α → Prop} {value : Json} {result : α} (isKnown : kind result ∈ known)
    (reads : ∀ name ∈ known, ∀ given, value.Gives name given →
      (contents name given = .ok result ↔ kind result = name ∧ Tells given result)) :
    tagged union known contents value = .ok result ↔
      ∃ given, value.Gives (kind result) given ∧ Tells given result := by
  rw [tagged_eq_ok_iff]
  constructor
  · rintro ⟨name, given, isKnown, gives, ends⟩
    obtain ⟨rfl, tells⟩ := (reads name isKnown given gives).mp ends
    exact ⟨given, gives, tells⟩
  · rintro ⟨given, gives, tells⟩
    exact ⟨kind result, given, isKnown, gives, (reads _ isKnown given gives).mpr ⟨rfl, tells⟩⟩

/-- Contents that are null are none. -/
theorem noContents_eq_ok_iff {α : Type} {variant : String} {value result : α}
    {contents : Option Json} : noContents variant value contents = .ok result ↔
      (contents = none ∨ contents = some .null) ∧ result = value := by
  cases contents with
  | none => simp [noContents, eq_comm]
  | some given => cases given <;> simp [noContents, eq_comm]

/-- **Contents with fields are an object in which stands what has to be there**, and what is made
of them is made of any record whose parts are what the object says. -/
theorem fieldContents_map_eq_ok_iff {α β : Type} {variant : String} {form : RecordForm α}
    {start : α} {given : Json → Prop} {parts : List (RecordPart α)}
    (splits : form.Splits given parts) (isOpen : form.isClosed = false) {make : α → β}
    (ofParts : ∀ record record', (∀ part ∈ parts, part.get record = part.get record') →
      make record = make record')
    {contents : Option Json} {result : β}
    (once : ∀ entries, contents = some (.object entries) → (entries.map Prod.fst).Nodup)
    (within : ∀ entries, contents = some (.object entries) → ∀ entry ∈ entries, given entry.2) :
    (fieldContents variant form start contents).map make = .ok result ↔
      ∃ entries, contents = some (.object entries) ∧ form.absent entries = [] ∧ ∃ record,
        (∀ part ∈ parts, part.Follows (entries.lookup part.key) start record) ∧
          result = make record := by
  have isObject (record : α) : fieldContents variant form start contents = .ok record ↔
      ∃ entries, contents = some (.object entries) ∧
        form.readEntries start entries = .ok record := by
    cases contents with
    | none => simp [fieldContents, someContents]
    | some value => cases value <;> simp [fieldContents, someContents, RecordForm.readObject]
  simp only [map_eq_ok_iff, isObject]
  constructor
  · rintro ⟨record, ⟨entries, rfl, reads⟩, made⟩
    refine ⟨entries, rfl, ?_⟩
    exact (splits.exists_readEntries_iff isOpen (once _ rfl) (within _ rfl) ofParts).mp
      ⟨record, reads, made⟩
  · rintro ⟨entries, rfl, complete, record, follows, made⟩
    obtain ⟨record', reads, made'⟩ :=
      (splits.exists_readEntries_iff isOpen (once _ rfl) (within _ rfl) ofParts).mpr
        ⟨complete, record, follows, made⟩
    exact ⟨record', ⟨entries, rfl, reads⟩, made'⟩

end Decode

end ScreenPilot
