import Mathlib.Data.List.Nodup
import ScreenPilot.Proofs.Text.Yields
import ScreenPilot.Toml.Reader

/-!
# Tables that are read

Whatever stands in a document, the table it stands for is sound (`parse?_sound`): it gives no key
twice, at any depth, and its integers have sixty-four bits. This is kept by every step of reading:
by values, which are read from the inside (`readValue_yields`), and by drafts, whatever a statement
makes of them (`Draft.add_yields`).
-/

set_option autoImplicit false

namespace ScreenPilot

namespace Toml

/-- Keys are given once, and integers have sixty-four bits. -/
inductive Sound : Toml → Prop where
  | bool (flag : Bool) : Sound (.bool flag)
  | integer {number : Int} (low : Int64.minValue.toInt ≤ number)
      (high : number ≤ Int64.maxValue.toInt) : Sound (.integer number)
  | float (number : Double) : Sound (.float number)
  | string (text : String) : Sound (.string text)
  | moment (text : String) : Sound (.moment text)
  | array {items : List Toml} (each : ∀ item ∈ items, Sound item) : Sound (.array items)
  | table {entries : List (String × Toml)} (once : (entries.map Prod.fst).Nodup)
      (each : ∀ entry ∈ entries, Sound entry.2) : Sound (.table entries)

/-! ## Scalars -/

/-- A value that is read is sound. -/
abbrev YieldsSound (parsed : Option (Toml × List Char)) : Prop :=
  Yields (fun result => result.1.Sound) parsed

theorem wholeNumber_yields (negative : Bool) (number : Nat) :
    Yields Sound (wholeNumber negative number) := by
  simp only [wholeNumber]
  generalize (if negative = true then -(number : Int) else number) = value
  split
  case isTrue fits => exact yields_some (.integer fits.1 fits.2)
  case isFalse => exact yields_none

theorem inBase_yields (base : Nat) (chars : List Char) : YieldsSound (inBase base chars) :=
  yields_after fun (_, _) => yields_after fun number =>
    yields_bind (wholeNumber_yields false number) fun _ sound => yields_some sound

theorem readInteger_yields (chars : List Char) : YieldsSound (readInteger chars) := by
  unfold readInteger
  split
  · exact inBase_yields 16 _
  · exact inBase_yields 8 _
  · exact inBase_yields 2 _
  · exact yields_after fun (_, _) => yields_after fun number =>
      yields_bind (wholeNumber_yields _ number) fun _ sound => yields_some sound

theorem readFloat_yields (chars : List Char) : YieldsSound (readFloat chars) := by
  refine yields_after fun _ => ?_
  simp only []
  split
  · exact yields_none
  · exact yields_after fun _ => yields_after fun _ => yields_some (.float _)

theorem readSpecial_yields (chars : List Char) : YieldsSound (readSpecial chars) := by
  simp only [readSpecial]
  split
  · exact yields_some (.float _)
  · exact yields_some (.float _)
  · exact yields_none

theorem readMoment_yields (chars : List Char) : YieldsSound (readMoment chars) := by
  simp only [readMoment]
  split
  · exact yields_some (.moment _)
  · exact yields_after fun _ => yields_some (.moment _)

theorem readBool_yields (chars : List Char) : YieldsSound (readBool chars) := by
  unfold readBool
  split
  · exact yields_some (.bool true)
  · exact yields_some (.bool false)
  · exact yields_none

theorem readScalar_yields (chars : List Char) : YieldsSound (readScalar chars) := by
  refine yields_orElse ?_ <| yields_orElse (readBool_yields chars) <|
    yields_orElse (readMoment_yields chars) <| yields_orElse (readFloat_yields chars) <|
    yields_orElse (readSpecial_yields chars) (readInteger_yields chars)
  exact @yields_map _ _ (fun _ => True) _ _ _ (fun _ _ => trivial) fun result _ =>
    .string result.1

/-! ## Entries -/

/-- An entry of a draft is sound. -/
inductive Entry.Sound : Entry → Prop where
  | value {value : Toml} (sound : value.Sound) : Entry.Sound (.value value)
  | table {origin : Origin} {entries : Entries} (once : (entries.map Prod.fst).Nodup)
      (each : ∀ entry ∈ entries, Entry.Sound entry.2) : Entry.Sound (.table origin entries)
  | tables {elements : List Entries} (once : ∀ entries ∈ elements, (entries.map Prod.fst).Nodup)
      (each : ∀ entries ∈ elements, ∀ entry ∈ entries, Entry.Sound entry.2) :
      Entry.Sound (.tables elements)

namespace Entries

/-- No key is given twice, and each entry is sound. -/
structure Sound (entries : Entries) : Prop where
  once : (entries.map Prod.fst).Nodup
  each : ∀ entry ∈ entries, entry.2.Sound

theorem sound_nil : Sound [] := ⟨List.nodup_nil, nofun⟩

theorem Sound.entry {entries : Entries} (sound : entries.Sound) (origin : Origin) :
    (Entry.table origin entries).Sound := .table sound.once sound.each

theorem Sound.lookup {entries : Entries} (sound : entries.Sound) {key : String} {entry : Entry}
    (found : entries.lookup key = some entry) : entry.Sound := by
  obtain ⟨before, after, rfl, -⟩ := List.lookup_eq_some_iff.mp found
  exact sound.each (key, entry) (by simp)

/-- The keys are those from before, and the new one. -/
theorem mem_keys_put {entries : Entries} {key other : String} {entry : Entry}
    (member : other ∈ (put key entry entries).map Prod.fst) :
    other = key ∨ other ∈ entries.map Prod.fst := by
  induction entries with
  | nil => exact .inl (List.mem_singleton.mp member)
  | cons first entries ih =>
    rw [put] at member
    split at member
    case isTrue same =>
      rcases List.mem_cons.mp member with rfl | member
      · exact .inl rfl
      · exact .inr (List.mem_cons_of_mem _ member)
    case isFalse =>
      rcases List.mem_cons.mp member with rfl | member
      · exact .inr List.mem_cons_self
      · exact (ih member).imp id (List.mem_cons_of_mem _)

/-- An entry may be put under any key. -/
theorem Sound.put {entries : Entries} (sound : entries.Sound) {key : String} {entry : Entry}
    (isSound : entry.Sound) : Sound (put key entry entries) := by
  induction entries with
  | nil =>
    refine ⟨List.nodup_singleton key, ?_⟩
    rintro _ member
    rw [List.mem_singleton.mp member]
    exact isSound
  | cons first entries ih =>
    obtain ⟨once, each⟩ := sound
    rw [List.map_cons, List.nodup_cons] at once
    obtain ⟨isFirst, each⟩ := List.forall_mem_cons.mp each
    rw [Entries.put]
    split
    case isTrue same =>
      refine ⟨?_, List.forall_mem_cons.mpr ⟨isSound, each⟩⟩
      rw [List.map_cons, List.nodup_cons, ← same]
      exact once
    case isFalse other =>
      obtain ⟨once', each'⟩ := ih ⟨once.2, each⟩
      refine ⟨?_, List.forall_mem_cons.mpr ⟨isFirst, each'⟩⟩
      rw [List.map_cons, List.nodup_cons]
      refine ⟨fun member => ?_, once'⟩
      exact (mem_keys_put member).elim other once.1

/-- **A change at the end of a path keeps a table sound.** -/
theorem change_yields {made : Origin} {enter : Origin → Bool}
    {act : Origin → Entries → Option Entries}
    (acts : ∀ origin entries, Sound entries → Yields Sound (act origin entries))
    (path : List String) (origin : Origin) {entries : Entries} (sound : entries.Sound) :
    Yields Sound (change made enter act path origin entries) := by
  induction path generalizing origin entries with
  | nil => exact acts origin entries sound
  | cons key path ih =>
    rw [change]
    split
    case h_1 => exact yields_bind (ih made sound_nil) fun inside isSound =>
      yields_some (sound.put (isSound.entry made))
    case h_2 found =>
      split
      · cases sound.lookup found with
        | table once each =>
          exact yields_bind (ih _ ⟨once, each⟩) fun inside isSound =>
            yields_some (sound.put (isSound.entry _))
      · exact yields_none
    case h_3 elements found =>
      cases sound.lookup found with
      | tables once each =>
        split
        · exact yields_none
        · rename_i last earlier reversed
          have member {entries : Entries} (listed : entries ∈ last :: earlier) :
              entries ∈ elements := by
            rw [← reversed] at listed
            exact List.mem_reverse.mp listed
          have isLast : Sound last :=
            ⟨once _ (member List.mem_cons_self), each _ (member List.mem_cons_self)⟩
          refine yields_bind (ih .header isLast) fun inside isSound => yields_some (sound.put ?_)
          have elements : ∀ entries ∈ (inside :: earlier).reverse, Sound entries := by
            intro entries listed
            rcases List.mem_cons.mp (List.mem_reverse.mp listed) with rfl | listed
            · exact isSound
            · have old := member (List.mem_cons_of_mem _ listed)
              exact ⟨once _ old, each _ old⟩
          exact .tables (fun entries listed => (elements entries listed).once)
            fun entries listed => (elements entries listed).each
    case h_4 => exact yields_none

theorem setDotted_yields (path : List String) (key : String) {value : Toml} (isSound : value.Sound)
    {entries : Entries} (sound : entries.Sound) :
    Yields Sound (setDotted path key value entries) := by
  refine change_yields (fun origin inside sound => ?_) path .header sound
  split
  · exact yields_some (sound.put (.value isSound))
  · exact yields_none

theorem set_yields (header path : List String) (key : String) {value : Toml}
    (isSound : value.Sound) {entries : Entries} (sound : entries.Sound) :
    Yields Sound (Entries.set header path key value entries) :=
  change_yields (fun _ _ sound => setDotted_yields path key isSound sound) header .header sound

theorem openTable_yields (path : List String) (key : String) {entries : Entries}
    (sound : entries.Sound) : Yields Sound (openTable path key entries) := by
  refine change_yields (fun origin inside sound => ?_) path .header sound
  split
  · exact yields_some (sound.put (sound_nil.entry .header))
  · rename_i found isFound
    cases sound.lookup isFound with
    | table once each => exact yields_some (sound.put (.table once each))
  · exact yields_none

theorem openElement_yields (path : List String) (key : String) {entries : Entries}
    (sound : entries.Sound) : Yields Sound (openElement path key entries) := by
  refine change_yields (fun origin inside sound => ?_) path .header sound
  split
  · exact yields_some (sound.put (.tables (by simp) (by simp)))
  · rename_i elements isFound
    cases sound.lookup isFound with
    | tables once each =>
      refine yields_some (sound.put (.tables ?_ ?_))
      · exact List.forall_mem_append.mpr ⟨once, by simp⟩
      · exact List.forall_mem_append.mpr ⟨each, by simp⟩
  · exact yields_none

end Entries

/-! ## Values of entries -/

theorem entriesToToml_eq (entries : Entries) :
    entriesToToml entries = entries.map fun entry => (entry.1, entry.2.toToml) := by
  induction entries with
  | nil => rfl
  | cons entry entries ih => exact congrArg (_ :: ·) ih

theorem elementsToToml_eq (elements : List Entries) :
    elementsToToml elements = elements.map fun entries => .table (entriesToToml entries) := by
  induction elements with
  | nil => rfl
  | cons entries elements ih => exact congrArg (_ :: ·) ih

theorem sound_table {entries : Entries} (once : (entries.map Prod.fst).Nodup)
    (each : ∀ entry ∈ entries, entry.2.toToml.Sound) :
    (Toml.table (entriesToToml entries)).Sound := by
  rw [entriesToToml_eq]
  refine .table ?_ (List.forall_mem_map.mpr each)
  rw [List.map_map]
  exact once

theorem Entry.Sound.toToml {entry : Entry} (sound : entry.Sound) : entry.toToml.Sound := by
  induction sound with
  | value sound => exact sound
  | table once _ ih => exact sound_table once ih
  | tables once _ ih =>
    rw [Entry.toToml, elementsToToml_eq]
    refine .array (List.forall_mem_map.mpr fun entries listed => ?_)
    exact sound_table (once entries listed) (ih entries listed)

theorem Entries.Sound.table {entries : Entries} (sound : entries.Sound) :
    (Toml.table (entriesToToml entries)).Sound :=
  sound_table sound.once fun entry member => (sound.each entry member).toToml

/-! ## Values -/

section Values

variable {value : List Char → Option (Toml × List Char)}

theorem readItems_yields (yields : ∀ chars, YieldsSound (value chars)) (fuel : Nat)
    (chars : List Char) :
    Yields (fun result => ∀ item ∈ result.1, Sound item) (readItems value fuel chars) := by
  induction fuel generalizing chars with
  | zero => exact yields_none
  | succ fuel ih =>
    refine yields_after fun rest => ?_
    split
    · exact yields_some nofun
    · refine yields_bind (yields _) fun (first, rest) isFirst => yields_after fun rest => ?_
      split
      · exact yields_some (List.forall_mem_singleton.mpr isFirst)
      · exact yields_map (ih _) fun result each => List.forall_mem_cons.mpr ⟨isFirst, each⟩
      · exact yields_none

theorem readPair_yields (yields : ∀ chars, YieldsSound (value chars)) (chars : List Char) :
    Yields (fun result => result.1.2.Sound) (readPair value chars) :=
  yields_after fun (_, _) => yields_after fun _ => yields_bind (yields _) fun (_, _) isSound =>
    yields_some isSound

theorem readPairs_yields (yields : ∀ chars, YieldsSound (value chars)) (fuel : Nat)
    (chars : List Char) :
    Yields (fun result => ∀ pair ∈ result.1, pair.2.Sound) (readPairs value fuel chars) := by
  induction fuel generalizing chars with
  | zero => exact yields_none
  | succ fuel ih =>
    refine yields_bind (readPair_yields yields chars) fun (first, rest) isFirst => ?_
    simp only []
    split
    · exact yields_some (List.forall_mem_singleton.mpr isFirst)
    · exact yields_map (ih _) fun result each => List.forall_mem_cons.mpr ⟨isFirst, each⟩
    · exact yields_none

end Values

theorem tableOfPairs_yields {pairs : List (List String × Toml)}
    (each : ∀ pair ∈ pairs, pair.2.Sound) : Yields Sound (tableOfPairs pairs) := by
  refine yields_bind (yields_foldlM ?_ Entries.sound_nil) fun entries sound =>
    yields_some sound.table
  rintro ⟨path, value⟩ member entries sound
  exact Entries.setDotted_yields _ _ (each _ member) sound

/-- **Values that are read are sound.** -/
theorem readValue_yields (depth : Nat) (chars : List Char) :
    YieldsSound (readValue depth chars) := by
  induction depth generalizing chars with
  | zero => exact readScalar_yields chars
  | succ depth ih =>
    unfold readValue
    split
    · exact yields_map (readItems_yields ih _ _) fun result each => .array each
    · split
      · exact yields_some (.table List.nodup_nil nofun)
      · exact yields_bind (readPairs_yields ih _ _) fun (pairs, rest) each =>
          yields_bind (tableOfPairs_yields each) fun table isSound => yields_some isSound
    · exact readScalar_yields _

/-! ## Documents -/

/-- The value that a statement gives is sound. -/
def Statement.Sound : Statement → Prop
  | .pair _ value => value.Sound
  | _ => True

theorem readStatement_yields (chars : List Char) :
    Yields (fun result => result.1.Sound) (readStatement chars) := by
  unfold readStatement
  split
  · refine yields_after fun (path, rest) => ?_
    simp only []
    split
    · exact yields_after fun _ => yields_some trivial
    · exact yields_none
  · exact yields_after fun (_, _) => yields_after fun _ => yields_after fun _ =>
      yields_some trivial
  · exact yields_bind (readPair_yields (readValue_yields mostNesting) _)
      fun ((_, _), _) isSound => yields_after fun _ => yields_some isSound

theorem readStatements_yields (fuel : Nat) (chars : List Char) :
    Yields (fun statements => ∀ statement ∈ statements, statement.Sound)
      (readStatements fuel chars) := by
  induction fuel generalizing chars with
  | zero => exact yields_none
  | succ fuel ih =>
    unfold readStatements
    split
    · exact yields_some nofun
    · exact yields_after fun _ => ih _
    · split
      · exact ih _
      · exact yields_bind (readStatement_yields _) fun (first, rest) isFirst =>
          yields_map (ih _) fun statements each => List.forall_mem_cons.mpr ⟨isFirst, each⟩

/-- A statement keeps a draft sound. -/
theorem Draft.add_yields {statement : Statement} (isSound : statement.Sound) {draft : Draft}
    (sound : draft.entries.Sound) :
    Yields (fun draft => draft.entries.Sound) (draft.add statement) := by
  cases statement with
  | table path =>
    exact yields_bind (Entries.openTable_yields _ _ sound) fun _ sound => yields_some sound
  | element path =>
    exact yields_bind (Entries.openElement_yields _ _ sound) fun _ sound => yields_some sound
  | pair path value =>
    exact yields_bind (Entries.set_yields _ _ _ isSound sound) fun _ sound => yields_some sound

/-- **A document that can be read gives no key twice, and its integers have sixty-four bits.** -/
theorem parse?_sound {document : String} {table : Toml} (reads : parse? document = some table) :
    table.Sound := by
  have yields : Yields Sound (parse? document) := by
    refine yields_bind (readStatements_yields _ _) fun statements each => ?_
    refine yields_bind (yields_foldlM (fun statement member draft sound => ?_)
      Entries.sound_nil) fun draft sound => yields_some (Entries.Sound.table sound)
    exact Draft.add_yields (each statement member) sound
  exact yields table reads

/-- A document stands for a table. -/
theorem exists_of_parse? {document : String} {table : Toml} (reads : parse? document = some table) :
    ∃ entries, table = .table entries := by
  obtain ⟨statements, -, reads⟩ := Option.bind_eq_some_iff.mp reads
  obtain ⟨draft, -, reads⟩ := Option.bind_eq_some_iff.mp reads
  exact ⟨_, (Option.some.inj reads).symm⟩

end Toml

end ScreenPilot
