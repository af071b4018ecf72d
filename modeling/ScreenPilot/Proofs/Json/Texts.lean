import ScreenPilot.Json.Reader
import ScreenPilot.Proofs.Json.Records
import ScreenPilot.Proofs.Text.Yields

/-!
# Values that are read from texts

Whatever a text says, a value that is read from it is sound (`Json.parse?_sound`): no object in it
has a key twice, at any depth. This is kept by both passes. The tokens that are values are no
objects (`Json.tokens?_yields`), and an object is only made when it is closed, from fields whose
values are sound (`Json.Builder.take_yields`).
-/

set_option autoImplicit false

namespace ScreenPilot

namespace Json

/-- No object in the value has a key twice. -/
inductive Sound : Json → Prop where
  | null : Sound .null
  | bool (flag : Bool) : Sound (.bool flag)
  | integer (number : Int) : Sound (.integer number)
  | float (number : Double) : Sound (.float number)
  | string (text : String) : Sound (.string text)
  | array {items : List Json} (each : ∀ item ∈ items, Sound item) : Sound (.array items)
  | object {entries : List (String × Json)} (once : (entries.map Prod.fst).Nodup)
      (each : ∀ entry ∈ entries, Sound entry.2) : Sound (.object entries)

/-- What stands in a sound value is sound. -/
theorem Sound.within {value : Json} (sound : value.Sound) : value.Within Sound := by
  cases sound with
  | array each => exact each
  | object _ each => exact each
  | _ => trivial

theorem Sound.nodup_keys {entries : List (String × Json)} (sound : (Json.object entries).Sound) :
    (entries.map Prod.fst).Nodup := by
  cases sound with | object once => exact once

/-- An object that is made of fields has values that were given. -/
theorem Table.mem_ofList {fields : List (String × Json)} {entry : String × Json}
    (member : entry ∈ (Std.ExtTreeMap.ofList fields : Table).toList) : entry ∈ fields := by
  rw [Std.ExtTreeMap.ofList_eq_insertMany_empty] at member
  suffices inserted : ∀ table : Table, entry ∈ (table.insertMany fields).toList →
      entry ∈ table.toList ∨ entry ∈ fields by
    rcases inserted ∅ member with member | member
    · exact nomatch mem_toList_iff.mp member
    · exact member
  clear member
  induction fields with
  | nil => simp
  | cons field fields ih =>
    intro table member
    obtain ⟨key, value⟩ := field
    rw [Std.ExtTreeMap.insertMany_cons] at member
    rcases ih _ member with inserted | later
    · rw [mem_toList_iff, Std.ExtTreeMap.getElem?_insert] at inserted
      split at inserted
      · rename_i same
        cases inserted
        rw [Std.compare_eq_iff_eq.mp same]
        exact .inr List.mem_cons_self
      · exact .inl (mem_toList_iff.mpr inserted)
    · exact .inr (List.mem_cons_of_mem _ later)

theorem sound_ofFields {fields : List (String × Json)} (each : ∀ field ∈ fields, field.2.Sound) :
    (ofFields fields).Sound := by
  rw [ofFields_eq_ofTable]
  exact .object (Table.nodup_keys _) fun entry member => each entry <|
    Table.mem_ofList member

/-! ## Tokens -/

/-- A token that is a value is sound. -/
def Token.IsSound : Token → Prop
  | .scalar value => value.Sound
  | _ => True

theorem Numeral.toJson_yields (numeral : Numeral) : Yields Sound numeral.toJson := by
  have isFloat (given : Option Double) : Yields Sound (given.map .float) :=
    @yields_map _ _ (fun _ => True) _ _ _ (fun _ _ => trivial) fun number _ => .float number
  simp only [toJson]
  split
  · split
    · exact isFloat _
    · split
      · split
        · exact isFloat _
        · exact yields_some (.integer _)
      · exact yields_some (.integer _)
  · split
    · exact isFloat _
    · split
      · exact isFloat _
      · split
        · exact yields_none
        · exact isFloat _

theorem scalarOf_yields (word : List Char) : Yields Sound (scalarOf word) := by
  unfold scalarOf
  split
  · exact yields_some .null
  split
  · exact yields_some (.bool true)
  split
  · exact yields_some (.bool false)
  · exact yields_after Numeral.toJson_yields

theorem sound_scalar {tokens : List Token} (sound : ∀ token ∈ tokens, token.IsSound) {value : Json}
    (isSound : value.Sound) : ∀ token ∈ .scalar value :: tokens, token.IsSound :=
  List.forall_mem_cons.mpr ⟨isSound, sound⟩

/-- The tokens so far are sound. -/
def Cutter.IsSound (state : Cutter) : Prop := ∀ token ∈ state.tokens, token.IsSound

theorem Cutter.start_yields {tokens : List Token} (sound : ∀ token ∈ tokens, token.IsSound)
    (char : Char) : Yields Cutter.IsSound (Cutter.start tokens char) := by
  have mark (token : Token) (isMark : token.IsSound) (cutting : Cutting) :
      Yields Cutter.IsSound (some ⟨token :: tokens, cutting⟩) :=
    yields_some (List.forall_mem_cons.mpr ⟨isMark, sound⟩)
  unfold Cutter.start
  split
  · exact yields_some sound
  split
  · exact yields_some sound
  split
  case h_7 => exact yields_some sound
  case h_8 => exact yields_none
  all_goals
    refine mark _ ?_ _
    trivial

theorem Cutter.take_yields (char : Char) {state : Cutter} (sound : state.IsSound) :
    Yields Cutter.IsSound (state.take char) := by
  have same (cutting : Cutting) : Yields Cutter.IsSound (some ⟨state.tokens, cutting⟩) :=
    yields_some sound
  unfold Cutter.take
  split
  case h_1 => exact start_yields sound char
  case h_2 read _ =>
    split
    · exact same _
    · refine yields_bind (scalarOf_yields _) fun value isSound => ?_
      exact start_yields (sound_scalar sound isSound) char
  case h_3 read _ =>
    split
    · exact yields_some (List.forall_mem_cons.mpr ⟨trivial, sound⟩)
    split
    · exact same _
    split
    · exact yields_none
    · exact same _
  case h_4 read _ =>
    split
    · exact same _
    · exact @yields_map _ _ (fun _ => True) _ _ _ (fun _ _ => trivial) fun _ _ => sound
  case h_5 read high left value _ =>
    refine yields_after fun digit => ?_
    simp only
    split
    · exact @yields_map _ _ (fun _ => True) _ _ _ (fun _ _ => trivial) fun _ _ => sound
    · exact same _
  case h_6 read high slash _ =>
    split
    · split
      · exact same _
      · exact yields_none
    · split
      · exact same _
      · exact yields_none

theorem tokens?_yields (text : String) :
    Yields (fun tokens => ∀ token ∈ tokens, token.IsSound) (tokens? text) := by
  refine yields_bind (yields_foldlM (fun char _ state => Cutter.take_yields char) nofun)
    fun state sound => ?_
  unfold Cutter.finish
  split
  · exact yields_some fun token member => sound token (List.mem_reverse.mp member)
  · refine yields_map (scalarOf_yields _) fun value isSound token member => ?_
    exact sound_scalar sound isSound token (List.mem_reverse.mp member)
  · exact yields_none

/-! ## Values -/

/-- What an unfinished container holds is sound. -/
def Frame.IsSound : Frame → Prop
  | .array items => ∀ item ∈ items, item.Sound
  | .object fields _ => ∀ field ∈ fields, field.2.Sound

def Expected.IsSound : Expected → Prop
  | .key fields => ∀ field ∈ fields, field.2.Sound
  | .nothing read => read.Sound
  | _ => True

/-- Whatever has been read is sound. -/
structure Builder.IsSound (state : Builder) : Prop where
  frames : ∀ frame ∈ state.frames, frame.IsSound
  expected : state.expected.IsSound

namespace Builder

theorem sound_complete {frames : List Frame} (sound : ∀ frame ∈ frames, frame.IsSound)
    {value : Json} (isSound : value.Sound) : (complete frames value).IsSound := by
  unfold complete
  split
  · exact ⟨nofun, isSound⟩
  all_goals
    obtain ⟨items, rest⟩ := List.forall_mem_cons.mp sound
    exact ⟨List.forall_mem_cons.mpr ⟨List.forall_mem_cons.mpr ⟨isSound, items⟩, rest⟩, trivial⟩

theorem begin_yields {frames : List Frame} (sound : ∀ frame ∈ frames, frame.IsSound) {token : Token}
    (isSound : token.IsSound) : Yields Builder.IsSound (begin frames token) := by
  have opened (frame : Frame) (isEmpty : frame.IsSound) (expected : Expected)
      (isOpen : expected.IsSound) :
      Yields Builder.IsSound
        (if frames.length < deepestNesting then some ⟨frame :: frames, expected⟩ else none) := by
    split
    · exact yields_some ⟨List.forall_mem_cons.mpr ⟨isEmpty, sound⟩, isOpen⟩
    · exact yields_none
  unfold begin
  split
  case h_1 value => exact yields_some (sound_complete sound isSound)
  case h_2 text => exact yields_some (sound_complete sound (.string text))
  case h_3 => exact opened (.array []) (List.forall_mem_nil _) _ trivial
  case h_4 => exact opened (.object [] "") (List.forall_mem_nil _) _ trivial
  case h_5 => exact yields_none

/-- An array that is closed is complete. -/
theorem sound_closeArray {frames : List Frame} {items : List Json}
    (sound : ∀ frame ∈ Frame.array items :: frames, frame.IsSound) :
    (complete frames (.array items.reverse)).IsSound := by
  obtain ⟨each, outer⟩ := List.forall_mem_cons.mp sound
  exact sound_complete outer (.array fun item member => each item (List.mem_reverse.mp member))

theorem sound_closeObject {frames : List Frame} {fields : List (String × Json)} {key : String}
    (sound : ∀ frame ∈ Frame.object fields key :: frames, frame.IsSound) :
    (complete frames (ofFields fields.reverse)).IsSound := by
  obtain ⟨each, outer⟩ := List.forall_mem_cons.mp sound
  exact sound_complete outer <|
    sound_ofFields fun field member => each field (List.mem_reverse.mp member)

theorem take_yields {state : Builder} (sound : state.IsSound) {token : Token}
    (isSound : token.IsSound) : Yields Builder.IsSound (state.take token) := by
  obtain ⟨frames, expected⟩ := state
  obtain ⟨sound, isExpected⟩ := sound
  unfold take
  dsimp only at sound isExpected ⊢
  split
  -- The first token of a value.
  case h_1 => exact begin_yields sound isSound
  case h_3 => exact begin_yields sound isSound
  -- The end of an array or an object.
  case h_2 => exact yields_some (sound_closeArray sound)
  case h_8 => exact yields_some (sound_closeArray sound)
  case h_4 =>
    have outer := (List.forall_mem_cons.mp sound).2
    exact yields_some (sound_complete outer (.object List.nodup_nil nofun))
  case h_10 => exact yields_some (sound_closeObject sound)
  -- A key, and what separates.
  case h_5 =>
    obtain ⟨each, outer⟩ := List.forall_mem_cons.mp sound
    exact yields_some ⟨List.forall_mem_cons.mpr ⟨each, outer⟩, trivial⟩
  case h_6 =>
    have outer := (List.forall_mem_cons.mp sound).2
    exact yields_some ⟨List.forall_mem_cons.mpr ⟨isExpected, outer⟩, trivial⟩
  case h_7 => exact yields_some ⟨sound, trivial⟩
  case h_9 => exact yields_some ⟨sound, trivial⟩
  case h_11 => exact yields_some ⟨sound, (List.forall_mem_cons.mp sound).1⟩
  case h_12 => exact yields_none

end Builder

/-- **No object that is read from a text has a key twice.** -/
theorem parse?_sound {text : String} {value : Json} (parsed : parse? text = some value) :
    value.Sound := by
  have yields : Yields Sound (parse? text) := by
    refine yields_bind (tokens?_yields text) fun tokens each => ?_
    refine yields_bind (yields_foldlM (fun token member state sound =>
      Builder.take_yields sound (each token member)) ⟨nofun, trivial⟩) fun state sound => ?_
    have expected := sound.expected
    split
    · rename_i isValue
      rw [isValue] at expected
      exact yields_some expected
    · exact yields_none
  exact yields value parsed

end Json

end ScreenPilot
