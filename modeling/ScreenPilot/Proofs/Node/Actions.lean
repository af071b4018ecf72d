import ScreenPilot.Node.Param
import ScreenPilot.Proofs.Json.Tagged
import ScreenPilot.Proofs.Json.Values

/-!
# Targets, waits and actions in documents

What a value means does not depend on how it is read. A target is the flag that is set, the name of
a node or four whole numbers (`Target.Means`); a wait is a number, or an object of numbers, each of
which may be missing (`WaitFreezes.Means`). A document of an action gives a kind and contents, and
the contents tell what action of the kind it is, with what they have to hold and what holds when
they hold nothing (`ActionParam.Tells`). The readers accept just the values that mean something,
and make of them what they mean (`Target.read_iff`, `WaitFreezes.read_iff`, `ActionParam.read_iff`).

That no object has a key twice is only asked of the objects whose keys are read one after the
other. It holds of every document that is read from a text.
-/

set_option autoImplicit false

namespace ScreenPilot

/-! ## Targets -/

theorem Rect.read_eq_ok_iff {value : Json} {rect : Rect} :
    Rect.read value = .ok rect ↔ value = .array [.integer rect.x.toInt, .integer rect.y.toInt,
      .integer rect.width.toInt, .integer rect.height.toInt] := by
  cases value with
  | array items =>
    rw [Rect.read, Json.array.injEq]
    unfold ofItems
    split
    case h_1 x y width height surplus =>
      simp only [bind_eq_ok_iff, Decode.int32_eq_ok_iff]
      constructor
      · rintro ⟨_, rfl, _, rfl, _, rfl, _, rfl, ends⟩
        split at ends
        · rename_i isEmpty
          cases ends
          rw [List.isEmpty_iff.mp isEmpty]
        · exact nomatch ends
      · intro same
        obtain ⟨rfl, rfl, rfl, rfl, rfl⟩ : _ ∧ _ ∧ _ ∧ _ ∧ _ := by simpa using same
        exact ⟨_, rfl, _, rfl, _, rfl, _, rfl, rfl⟩
    case h_2 items short =>
      constructor
      · intro reads
        obtain ⟨_, -, ends⟩ := bind_eq_ok_iff.mp reads
        exact nomatch ends
      · intro same
        exact (short _ _ _ _ _ same).elim
  | _ => simp [Rect.read]

namespace Target

/-- A value means a target. -/
inductive Means : Json → Target → Prop where
  | own : Means (.bool true) .own
  | node (name : String) : Means (.string name) (.node name)
  | fixed (x y width height : Int32) :
      Means (.array [.integer x.toInt, .integer y.toInt, .integer width.toInt,
        .integer height.toInt]) (.fixed ⟨x, y, width, height⟩)

/-- A target that is written can be read as a flag, a name or a rectangle. -/
theorem read_eq_ok_iff {value : Json} {target : Target} :
    read value = .ok target ↔
      value = .bool true ∧ target = .own ∨
      (∃ name, value = .string name ∧ target = .node name) ∨
      ∃ rect, Rect.read value = .ok rect ∧ target = .fixed rect := by
  unfold read
  simp only [bind_eq_ok_iff, Decode.firstOf_eq_ok_iff, List.findSome?_cons]
  cases value with
  | bool flag =>
    cases flag <;>
      simp [Decode.bool, Except.map, Except.toOption, ofWritten, Rect.read, eq_comm]
  | string name =>
    simp [Decode.bool, Decode.text, Decode.textAs, Except.map, Except.toOption, ofWritten,
      Rect.read, eq_comm]
  | array items =>
    cases Rect.read (.array items) <;>
      simp [Decode.bool, Decode.text, Decode.textAs, Except.map, Except.toOption, ofWritten,
        eq_comm]
  | _ => simp [Decode.bool, Decode.text, Decode.textAs, Except.map, Except.toOption, Rect.read]

/-- **What a target is read from.** -/
theorem read_iff {value : Json} {target : Target} :
    read value = .ok target ↔ Means value target := by
  simp only [read_eq_ok_iff, Rect.read_eq_ok_iff]
  constructor
  · rintro (⟨rfl, rfl⟩ | ⟨name, rfl, rfl⟩ | ⟨rect, rfl, rfl⟩)
    · exact .own
    · exact .node name
    · exact .fixed ..
  · rintro (_ | name | ⟨x, y, width, height⟩)
    · exact .inl ⟨rfl, rfl⟩
    · exact .inr (.inl ⟨name, rfl, rfl⟩)
    · exact .inr (.inr ⟨⟨x, y, width, height⟩, rfl, rfl⟩)

/-- The flag that is not set means no target. -/
example (target : Target) : ¬ Means (.bool false) target := nofun

end Target

/-! ## Waits -/

namespace WaitFreezes

/-- A value means a wait: a number of milliseconds says how long a frame has to stay the same, and
an object may say it and when to go on anyway and how long to pause. -/
inductive Means : Json → WaitFreezes → Prop where
  | number {value : Json} {time : UInt64} (isTime : Decode.IsTime value time) :
      Means value ⟨time, 20000, 1000⟩
  | object {entries : List (String × Json)} {time timeout rateLimit : UInt64}
      (lasts : Json.Says Decode.IsTime 0 (entries.lookup "time") time)
      (ends : Json.Says Decode.IsTime 20000 (entries.lookup "timeout") timeout)
      (pauses : Json.Says Decode.IsTime 1000 (entries.lookup "rate_limit") rateLimit) :
      Means (.object entries) ⟨time, timeout, rateLimit⟩

/-- The parts of a wait. -/
def parts : List (RecordPart WaitFreezes) :=
  [.saying "time" Decode.IsTime time fun time wait => { wait with time },
   .saying "timeout" Decode.IsTime timeout fun timeout wait => { wait with timeout },
   .saying "rate_limit" Decode.IsTime rateLimit fun rateLimit wait => { wait with rateLimit }]

theorem form_describes : form.Describes (fun _ => True) parts fun _ => () := by
  have isTime (value : Json) (time : UInt64) (_ : True) :
      Decode.uint64 value = .ok time ↔ Decode.IsTime value time := Decode.uint64_eq_ok_iff
  refine .of_forall (.cons (.saying isTime) <| .cons (.saying isTime) <|
    .cons (.saying isTime) .nil) (by decide) (by decide)
    (by and_intros <;> exact fun _ _ => rfl) ?apart ?ext
  case apart =>
    simp only [parts, List.pairwise_cons, List.forall_mem_cons, List.not_mem_nil, false_implies,
      implies_true, List.Pairwise.nil, and_true]
    and_intros
    all_goals exact ⟨fun _ _ => rfl, fun _ _ => rfl⟩
  case ext =>
    rintro ⟨_, _, _⟩ ⟨_, _, _⟩ ⟨rfl, rfl, rfl⟩
    rfl

/-- A wait that is written can be read as a number or as an object. -/
theorem read_eq_ok_iff {value : Json} {wait : WaitFreezes} :
    read value = .ok wait ↔
      (∃ time, Decode.uint64 value = .ok time ∧ wait = lasting time) ∨
      ∃ entries, value = .object entries ∧ form.readEntries default entries = .ok wait := by
  simp only [read, Decode.firstOf_eq_ok_iff, List.findSome?_cons]
  cases value with
  | object entries =>
    have isNumber : Decode.uint64 (.object entries) =
        .error (.wrongKind (.object entries) "u64") := rfl
    simp only [isNumber, RecordForm.readObject, List.findSome?_nil]
    cases reads : form.readEntries default entries <;> simp [reads, Except.map, Except.toOption]
  | _ =>
    cases Decode.uint64 _ <;>
      simp [RecordForm.readObject, Except.map, Except.toOption, eq_comm]

/-- **What a wait is read from.** -/
theorem read_iff {value : Json} {wait : WaitFreezes}
    (distinct : ∀ entries, value = .object entries → (entries.map Prod.fst).Nodup) :
    read value = .ok wait ↔ Means value wait := by
  have isObject (entries : List (String × Json)) (once : (entries.map Prod.fst).Nodup) :
      form.readEntries default entries = .ok wait ↔
        Json.Says Decode.IsTime 0 (entries.lookup "time") wait.time ∧
        Json.Says Decode.IsTime 20000 (entries.lookup "timeout") wait.timeout ∧
        Json.Says Decode.IsTime 1000 (entries.lookup "rate_limit") wait.rateLimit := by
    rw [form_describes.readEntries_iff once fun _ _ => trivial]
    simp only [parts, List.forall_mem_cons, List.not_mem_nil, false_implies, implies_true, and_true,
      RecordPart.follows_saying_iff, true_and]
    exact and_iff_right nofun
  rw [read_eq_ok_iff]
  constructor
  · rintro (⟨time, reads, rfl⟩ | ⟨entries, rfl, reads⟩)
    · exact .number (Decode.uint64_eq_ok_iff.mp reads)
    · obtain ⟨lasts, ends, pauses⟩ := (isObject entries (distinct entries rfl)).mp reads
      exact .object lasts ends pauses
  · intro means
    cases means with
    | number isTime => exact .inl ⟨_, Decode.uint64_eq_ok_iff.mpr isTime, rfl⟩
    | object lasts ends pauses =>
      exact .inr ⟨_, rfl, (isObject _ (distinct _ rfl)).mpr ⟨lasts, ends, pauses⟩⟩

end WaitFreezes

/-! ## Actions -/

namespace ActionParam

/-- Contents tell what an action is. -/
inductive Tells : Option Json → ActionParam → Prop where
  | doNothing : Tells none .doNothing
  | doNothing_null : Tells (some .null) .doNothing
  | click {entries : List (String × Json)} {target : Target}
      (touches : Json.Says Target.Means .own (entries.lookup "target") target) :
      Tells (some (.object entries)) (.click target)
  | longPress {entries : List (String × Json)} {target : Target} {duration : UInt64}
      (touches : Json.Says Target.Means .own (entries.lookup "target") target)
      (lasts : Json.Says Decode.IsTime 1000 (entries.lookup "duration") duration) :
      Tells (some (.object entries)) (.longPress target duration)
  | swipe {entries : List (String × Json)} {start finish : Target} {duration : UInt64} {last : Json}
      (starts : Json.Says Target.Means .own (entries.lookup "begin") start)
      (isLast : entries.lookup "end" = some last) (ends : Target.Means last finish)
      (lasts : Json.Says Decode.IsTime 200 (entries.lookup "duration") duration) :
      Tells (some (.object entries)) (.swipe start finish duration)
  | keys {entries : List (String × Json)} {codes : List Int32}
      (presses : entries.lookup "keys" =
        some (.array (codes.map fun code => .integer code.toInt))) :
      Tells (some (.object entries)) (.keys codes)
  | inputText {entries : List (String × Json)} {text : String}
      (enters : entries.lookup "text" = some (.string text)) :
      Tells (some (.object entries)) (.inputText text)
  | startApp {entries : List (String × Json)} {package : String}
      (starts : entries.lookup "package" = some (.string package)) :
      Tells (some (.object entries)) (.startApp package)
  | stopApp {entries : List (String × Json)} {package : String}
      (stops : entries.lookup "package" = some (.string package)) :
      Tells (some (.object entries)) (.stopApp package)
  /-- Without a payload the payload is null. -/
  | custom {entries : List (String × Json)} {name : String} {target : Target}
      (named : entries.lookup "name" = some (.string name))
      (touches : Json.Says Target.Means .own (entries.lookup "target") target) :
      Tells (some (.object entries))
        (.custom name ((entries.lookup "param").getD .null) target)

/-- A document means an action: it gives its kind, and contents that tell it. -/
def Means (value : Json) (action : ActionParam) : Prop :=
  ∃ contents, value.Gives action.kind contents ∧ Tells contents action

namespace Contents

def targetPart : RecordPart Contents :=
  .saying "target" Target.Means target fun target contents => { contents with target }

def startPart : RecordPart Contents :=
  .saying "begin" Target.Means start fun start contents => { contents with start }

def finishPart : RecordPart Contents :=
  .saying "end" Target.Means finish fun finish contents => { contents with finish }

def durationPart : RecordPart Contents :=
  .saying "duration" Decode.IsTime duration fun duration contents => { contents with duration }

def codesPart : RecordPart Contents :=
  .saying "keys" (fun value codes => value = .array (codes.map fun code => .integer code.toInt))
    codes fun codes contents => { contents with codes }

def textPart : RecordPart Contents :=
  .saying "text" (fun value text => value = .string text) text
    fun text contents => { contents with text }

def packagePart : RecordPart Contents :=
  .saying "package" (fun value package => value = .string package) package
    fun package contents => { contents with package }

def namePart : RecordPart Contents :=
  .saying "name" (fun value name => value = .string name) name
    fun name contents => { contents with name }

def paramPart : RecordPart Contents :=
  .saying "param" Eq param fun param contents => { contents with param }

/-- Everything that the contents of an action may say. -/
def parts : List (RecordPart Contents) :=
  [targetPart, startPart, finishPart, durationPart, codesPart, textPart, packagePart, namePart,
   paramPart]

/-- Fields that each set their own of the parts. -/
theorem splits {fields : List (FieldForm Contents)} {chosen : List (RecordPart Contents)}
    (fit : List.Forall₂ (RecordPart.Fits fun _ => True) fields chosen) (among : chosen ⊆ parts)
    (distinct : (chosen.map RecordPart.key).Nodup) :
    (form fields).Splits (fun _ => True) chosen where
  fit := fit
  distinct := distinct
  get_put part member := by
    have every : ∀ part ∈ parts, ∀ new contents, part.get (part.put new contents) = new := by
      simp only [parts, List.forall_mem_cons, List.not_mem_nil, false_implies, implies_true,
        and_true]
      and_intros
      all_goals exact fun _ _ => rfl
    exact every part (among member)
  apart := by
    have every : parts.Pairwise RecordPart.Apart := by
      simp only [parts, List.pairwise_cons, List.forall_mem_cons, List.not_mem_nil, false_implies,
        implies_true, List.Pairwise.nil, and_true]
      and_intros
      all_goals exact ⟨fun _ _ => rfl, fun _ _ => rfl⟩
    refine (List.pairwise_map.mp distinct).imp_of_mem fun member member' differs => ?_
    exact every.forall (among member) (among member') fun same => differs (same ▸ rfl)

section Fields

variable {given : Json → Prop}

theorem fits_target : RecordPart.Fits given targetField targetPart :=
  .saying fun _ _ _ => Target.read_iff

theorem fits_start : RecordPart.Fits given startField startPart :=
  .saying fun _ _ _ => Target.read_iff

theorem fits_finish : RecordPart.Fits given finishField finishPart :=
  .saying fun _ _ _ => Target.read_iff

theorem fits_duration : RecordPart.Fits given durationField durationPart :=
  .saying fun _ _ _ => Decode.uint64_eq_ok_iff

theorem fits_codes : RecordPart.Fits given codesField codesPart :=
  .saying fun _ _ _ => Decode.list_eq_ok_iff fun _ _ => Decode.int32_eq_ok_iff

theorem fits_text : RecordPart.Fits given textField textPart :=
  .saying fun _ _ _ => Decode.text_eq_ok_iff

theorem fits_package : RecordPart.Fits given packageField packagePart :=
  .saying fun _ _ _ => Decode.text_eq_ok_iff

theorem fits_name : RecordPart.Fits given nameField namePart :=
  .saying fun _ _ _ => Decode.text_eq_ok_iff

theorem fits_param : RecordPart.Fits given paramField paramPart :=
  .saying fun _ _ _ => ⟨Except.ok.inj, congrArg Except.ok⟩

end Fields

/-- **What contents with some of the fields are read as.** -/
theorem read_eq_ok_iff {kind : String} {fields : List (FieldForm Contents)}
    {chosen : List (RecordPart Contents)} {duration : UInt64} {make : Contents → ActionParam}
    {contents : Option Json} {action : ActionParam}
    (splits : (form fields).Splits (fun _ => True) chosen)
    (ofParts : ∀ given given', (∀ part ∈ chosen, part.get given = part.get given') →
      make given = make given')
    (distinct : ∀ entries, contents = some (.object entries) → (entries.map Prod.fst).Nodup) :
    read kind fields duration make contents = .ok action ↔
      ∃ entries, contents = some (.object entries) ∧
        (∀ field ∈ fields, field.presence = .always →
          ∃ value, entries.lookup field.key = some value) ∧
        ∃ given, (∀ part ∈ chosen, part.Follows (entries.lookup part.key)
          { (default : Contents) with duration, param := .null } given) ∧ action = make given := by
  rw [read, Decode.fieldContents_map_eq_ok_iff splits rfl ofParts distinct fun _ _ _ _ => trivial]
  simp only [RecordForm.absent_eq_nil_iff]
  rfl

/-- Contents of one field that has to be there. -/
theorem read_one_iff {β : Type} {kind key : String} {field : FieldForm Contents} {write : β → Json}
    {get : Contents → β} {put : β → Contents → Contents} {duration : UInt64}
    {make : β → ActionParam} {contents : Option Json} {action : ActionParam}
    (splits : (form [field]).Splits (fun _ => True)
      [.saying key (fun value new => value = write new) get put])
    (isRequired : field.presence = .always)
    (distinct : ∀ entries, contents = some (.object entries) → (entries.map Prod.fst).Nodup) :
    read kind [field] duration (fun given => make (get given)) contents = .ok action ↔
      ∃ entries new, contents = some (.object entries) ∧
        entries.lookup key = some (write new) ∧ action = make new := by
  have isKey : field.key = key := (List.forall₂_cons.mp splits.fit).1.key
  have get_put : ∀ new given, get (put new given) = new := splits.get_put _ List.mem_cons_self
  refine (read_eq_ok_iff splits (fun given given' alike => ?ofParts) distinct).trans ?_
  case ofParts =>
    have same : get given = get given' := alike _ List.mem_cons_self
    exact congrArg make same
  simp only [List.forall_mem_singleton, RecordPart.follows_saying_iff]
  constructor
  · rintro ⟨entries, rfl, there, given, said, rfl⟩
    obtain ⟨_, isThere, rfl⟩ := Json.says_and_exists_iff.mp ⟨isKey ▸ there isRequired, said⟩
    exact ⟨entries, get given, rfl, isThere, rfl⟩
  · rintro ⟨entries, new, rfl, isThere, rfl⟩
    refine ⟨entries, rfl, fun _ => ⟨_, isKey ▸ isThere⟩, put new default, ?_, ?_⟩
    · exact .of_some isThere (congrArg write (get_put new default).symm)
    · exact congrArg make (get_put new default).symm

end Contents

/-! ### Contents of each kind -/

section Kinds

open Contents

variable {contents : Option Json}
  (distinct : ∀ entries, contents = some (.object entries) → (entries.map Prod.fst).Nodup)

theorem doNothing_iff :
    ofContents "DoNothing" contents = .ok .doNothing ↔ Tells contents .doNothing := by
  refine Decode.noContents_eq_ok_iff.trans ⟨?_, ?_⟩
  · rintro ⟨rfl | rfl, -⟩
    · exact .doNothing
    · exact .doNothing_null
  · intro tells
    cases tells with
    | doNothing => exact ⟨.inl rfl, rfl⟩
    | doNothing_null => exact ⟨.inr rfl, rfl⟩

include distinct

theorem click_iff {target : Target} :
    ofContents "Click" contents = .ok (.click target) ↔ Tells contents (.click target) := by
  have splits := Contents.splits (.cons fits_target .nil) (by simp [parts]) (by decide)
  refine (read_eq_ok_iff splits (fun given given' alike => ?ofParts) distinct).trans ?_
  case ofParts =>
    simp only [List.forall_mem_cons] at alike
    exact congrArg ActionParam.click alike.1
  simp only [List.forall_mem_cons, List.not_mem_nil, false_implies, implies_true, and_true]
  constructor
  · rintro ⟨entries, rfl, -, given, touches, same⟩
    cases same
    exact .click (RecordPart.follows_saying_iff.mp touches)
  · intro tells
    cases tells with
    | click touches =>
      exact ⟨_, rfl, nofun, { (default : Contents) with target },
        RecordPart.follows_saying_iff.mpr touches, rfl⟩

theorem longPress_iff {target : Target} {duration : UInt64} :
    ofContents "LongPress" contents = .ok (.longPress target duration) ↔
      Tells contents (.longPress target duration) := by
  have splits := Contents.splits (.cons fits_target <| .cons fits_duration .nil) (by simp [parts])
    (by decide)
  refine (read_eq_ok_iff splits (fun given given' alike => ?ofParts) distinct).trans ?_
  case ofParts =>
    simp only [List.forall_mem_cons] at alike
    exact congrArg₂ ActionParam.longPress alike.1 alike.2.1
  simp only [List.forall_mem_cons, List.not_mem_nil, false_implies, implies_true, and_true]
  constructor
  · rintro ⟨entries, rfl, -, given, ⟨touches, lasts⟩, same⟩
    cases same
    exact .longPress (RecordPart.follows_saying_iff.mp touches)
      (RecordPart.follows_saying_iff.mp lasts)
  · intro tells
    cases tells with
    | longPress touches lasts =>
      exact ⟨_, rfl, ⟨nofun, nofun⟩, { (default : Contents) with target, duration },
        ⟨RecordPart.follows_saying_iff.mpr touches, RecordPart.follows_saying_iff.mpr lasts⟩, rfl⟩

theorem swipe_iff {start finish : Target} {duration : UInt64} :
    ofContents "Swipe" contents = .ok (.swipe start finish duration) ↔
      Tells contents (.swipe start finish duration) := by
  have splits := Contents.splits (.cons fits_start <| .cons fits_finish <| .cons fits_duration .nil)
    (by simp [parts]) (by decide)
  refine (read_eq_ok_iff splits (fun given given' alike => ?ofParts) distinct).trans ?_
  case ofParts =>
    simp only [List.forall_mem_cons] at alike
    exact congr (congrArg₂ ActionParam.swipe alike.1 alike.2.1) alike.2.2.1
  simp only [List.forall_mem_cons, List.not_mem_nil, false_implies, implies_true, and_true]
  constructor
  · rintro ⟨entries, rfl, ⟨-, there, -⟩, given, ⟨starts, ends, lasts⟩, same⟩
    cases same
    obtain ⟨last, isLast, ends⟩ := Json.says_and_exists_iff.mp
      ⟨there rfl, RecordPart.follows_saying_iff.mp ends⟩
    exact .swipe (RecordPart.follows_saying_iff.mp starts) isLast ends
      (RecordPart.follows_saying_iff.mp lasts)
  · intro tells
    cases tells with
    | swipe starts isLast ends lasts =>
      exact ⟨_, rfl, ⟨nofun, fun _ => ⟨_, isLast⟩, nofun⟩,
        { (default : Contents) with start, finish, duration },
        ⟨RecordPart.follows_saying_iff.mpr starts,
          RecordPart.follows_saying_iff.mpr (.of_some isLast ends),
          RecordPart.follows_saying_iff.mpr lasts⟩, rfl⟩

theorem keys_iff {codes : List Int32} :
    ofContents "Key" contents = .ok (.keys codes) ↔ Tells contents (.keys codes) := by
  have splits := Contents.splits (.cons fits_codes .nil) (by simp [parts]) (by decide)
  refine (read_one_iff splits rfl distinct).trans ⟨?_, fun tells => ?_⟩
  · rintro ⟨entries, _, rfl, presses, same⟩
    cases same
    exact .keys presses
  · cases tells with | keys presses => exact ⟨_, _, rfl, presses, rfl⟩

theorem inputText_iff {text : String} :
    ofContents "InputText" contents = .ok (.inputText text) ↔ Tells contents (.inputText text) := by
  have splits := Contents.splits (.cons fits_text .nil) (by simp [parts]) (by decide)
  refine (read_one_iff splits rfl distinct).trans ⟨?_, fun tells => ?_⟩
  · rintro ⟨entries, _, rfl, enters, same⟩
    cases same
    exact .inputText enters
  · cases tells with | inputText enters => exact ⟨_, _, rfl, enters, rfl⟩

theorem startApp_iff {package : String} :
    ofContents "StartApp" contents = .ok (.startApp package) ↔
      Tells contents (.startApp package) := by
  have splits := Contents.splits (.cons fits_package .nil) (by simp [parts]) (by decide)
  refine (read_one_iff splits rfl distinct).trans ⟨?_, fun tells => ?_⟩
  · rintro ⟨entries, _, rfl, starts, same⟩
    cases same
    exact .startApp starts
  · cases tells with | startApp starts => exact ⟨_, _, rfl, starts, rfl⟩

theorem stopApp_iff {package : String} :
    ofContents "StopApp" contents = .ok (.stopApp package) ↔
      Tells contents (.stopApp package) := by
  have splits := Contents.splits (.cons fits_package .nil) (by simp [parts]) (by decide)
  refine (read_one_iff splits rfl distinct).trans ⟨?_, fun tells => ?_⟩
  · rintro ⟨entries, _, rfl, stops, same⟩
    cases same
    exact .stopApp stops
  · cases tells with | stopApp stops => exact ⟨_, _, rfl, stops, rfl⟩

theorem custom_iff {name : String} {param : Json} {target : Target} :
    ofContents "Custom" contents = .ok (.custom name param target) ↔
      Tells contents (.custom name param target) := by
  have splits := Contents.splits (.cons fits_name <| .cons fits_param <| .cons fits_target .nil)
    (by simp [parts]) (by decide)
  refine (read_eq_ok_iff splits (fun given given' alike => ?ofParts) distinct).trans ?_
  case ofParts =>
    simp only [List.forall_mem_cons] at alike
    exact congr (congrArg₂ ActionParam.custom alike.1 alike.2.1) alike.2.2.1
  simp only [List.forall_mem_cons, List.not_mem_nil, false_implies, implies_true, and_true]
  constructor
  · rintro ⟨entries, rfl, ⟨there, -, -⟩, given, ⟨isName, isParam, touches⟩, same⟩
    cases same
    obtain ⟨_, named, rfl⟩ := Json.says_and_exists_iff.mp
      ⟨there rfl, RecordPart.follows_saying_iff.mp isName⟩
    rw [Json.says_value_iff.mp (RecordPart.follows_saying_iff.mp isParam)]
    exact .custom named (RecordPart.follows_saying_iff.mp touches)
  · intro tells
    cases tells with
    | custom named touches =>
      exact ⟨_, rfl, ⟨fun _ => ⟨_, named⟩, nofun, nofun⟩,
        { (default : Contents) with name, param := _, target },
        ⟨RecordPart.follows_saying_iff.mpr (.of_some named rfl),
          RecordPart.follows_saying_iff.mpr (Json.says_value_iff.mpr rfl),
          RecordPart.follows_saying_iff.mpr touches⟩, rfl⟩

end Kinds

open Contents in
/-- **What the contents of an action are read as.** -/
theorem ofContents_kind_iff {contents : Option Json} {action : ActionParam}
    (distinct : ∀ entries, contents = some (.object entries) → (entries.map Prod.fst).Nodup) :
    ofContents action.kind contents = .ok action ↔ Tells contents action := by
  cases action with
  | doNothing => exact doNothing_iff
  | click target => exact click_iff distinct
  | longPress target duration => exact longPress_iff distinct
  | swipe start finish duration => exact swipe_iff distinct
  | keys codes => exact keys_iff distinct
  | inputText text => exact inputText_iff distinct
  | startApp package => exact startApp_iff distinct
  | stopApp package => exact stopApp_iff distinct
  | custom name param target => exact custom_iff distinct

theorem kind_mem_kinds (action : ActionParam) : action.kind ∈ kinds := by
  cases action <;> simp [ActionParam.kind, kinds]

/-- Contents of a kind are read as an action of this kind. -/
theorem kind_of_ofContents {kind : String} (isKnown : kind ∈ kinds) {contents : Option Json}
    {action : ActionParam} (reads : ofContents kind contents = .ok action) :
    action.kind = kind := by
  have made {label : String} {fields : List (FieldForm Contents)} {duration : UInt64}
      {make : Contents → ActionParam} (ofKind : ∀ given, (make given).kind = kind)
      (reads : Contents.read label fields duration make contents = .ok action) :
      action.kind = kind := by
    obtain ⟨given, -, rfl⟩ := map_eq_ok_iff.mp reads
    exact ofKind given
  simp only [kinds, List.mem_cons, List.not_mem_nil, or_false] at isKnown
  rcases isKnown with rfl | rfl | rfl | rfl | rfl | rfl | rfl | rfl | rfl
  · rw [(Decode.noContents_eq_ok_iff.mp reads).2]
    rfl
  all_goals exact made (fun _ => rfl) reads

/-- **What an action is read from.** -/
theorem read_iff {value : Json} {action : ActionParam}
    (distinct : ∀ kind entries, value.Gives kind (some (.object entries)) →
      (entries.map Prod.fst).Nodup) :
    read value = .ok action ↔ Means value action := by
  refine Decode.tagged_iff_gives (kind_mem_kinds action) fun kind isKnown contents gives => ?_
  have distinctContents (entries : List (String × Json))
      (same : contents = some (.object entries)) : (entries.map Prod.fst).Nodup :=
    distinct kind entries (same ▸ gives)
  constructor
  · intro reads
    obtain rfl := kind_of_ofContents isKnown reads
    exact ⟨rfl, (ofContents_kind_iff distinctContents).mp reads⟩
  · rintro ⟨rfl, tells⟩
    exact (ofContents_kind_iff distinctContents).mpr tells

end ActionParam

end ScreenPilot
