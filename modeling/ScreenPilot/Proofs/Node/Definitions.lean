import ScreenPilot.Node.Read
import ScreenPilot.Proofs.Node.Actions
import ScreenPilot.Proofs.Node.Recognitions

/-!
# Definitions of nodes

The definition of a node is read part by part. `Node.parts` lists the parts with what a value
means for each; the readers make just this of it (`Node.readNames_eq_ok_iff`,
`WaitFreezes.read_iff`, `RecoParam.read_iff`, `ActionParam.read_iff`). The parts describe the form
of a definition (`Node.form_describes`), so each is what the definition says about it, or what the
defaults make it, whatever is said about the others (`Node.ofJson_by_parts`).

A definition is the table of an object, and the objects in it have no key twice either
(`Json.Sound`); so are all that are read from texts (`Json.parse?_sound`).
-/

set_option autoImplicit false

namespace ScreenPilot

namespace Node

/-! ## Parts of a node -/

/-- The value is a list of names, or the one name of a list. -/
def IsNames (value : Json) (names : List String) : Prop :=
  (∃ name, value = .string name ∧ names = [name]) ∨ value = .ofStrings names

/-- The part that a value under a key says, unless it is null. -/
def nullablePart {β : Type} (key : String) (Means : Json → β → Prop) (get : Node → β)
    (put : β → Node → Node) : RecordPart Node where
  key := key
  Part := β
  get := get
  put := put
  ignoresNull := true
  Means := Means

/-- A flag. -/
def flagPart (key : String) (get : Node → Bool) (put : Bool → Node → Node) : RecordPart Node :=
  nullablePart key (fun value flag => value = .bool flag) get put

/-- A time in milliseconds. -/
def timePart (key : String) (get : Node → UInt64) (put : UInt64 → Node → Node) :
    RecordPart Node :=
  nullablePart key Decode.IsTime get put

/-- A wait for a still screen. -/
def waitPart (key : String) (get : Node → WaitFreezes) (put : WaitFreezes → Node → Node) :
    RecordPart Node :=
  nullablePart key WaitFreezes.Means get put

/-- How often the node may be hit. -/
def maxHitPart : RecordPart Node :=
  nullablePart "max_hit" (fun value maxHit => Decode.IsNat value UInt32.size maxHit.toNat)
    Node.maxHit fun maxHit node => { node with maxHit }

/-- Any value. -/
def focusPart : RecordPart Node :=
  nullablePart "focus" (fun value focus => focus = some value) Node.focus
    fun focus node => { node with focus }

/-- A list of names, which cannot be null. -/
def namesPart (key : String) (get : Node → List String) (put : List String → Node → Node) :
    RecordPart Node :=
  .saying key IsNames get put

/-- The set of labels in a list. -/
def checkpointPart : RecordPart Node :=
  .saying "checkpoint"
    (fun value checkpoint =>
      ∃ labels, IsNames value labels ∧ ∀ label, label ∈ checkpoint ↔ label ∈ labels)
    Node.checkpoint fun checkpoint node => { node with checkpoint }

def recognitionPart : RecordPart Node :=
  .saying "recognition" RecoParam.Means Node.recognition
    fun recognition node => { node with recognition }

def actionPart : RecordPart Node :=
  .saying "action" ActionParam.Means Node.action fun action node => { node with action }

/-- The parts of a node but for its name, and what a definition says about them. -/
def parts : List (RecordPart Node) :=
  [flagPart "enabled" Node.enabled fun enabled node => { node with enabled },
   maxHitPart,
   flagPart "is_sub" Node.isSub fun isSub node => { node with isSub },
   namesPart "next" Node.next fun next node => { node with next },
   namesPart "interrupt" Node.interrupt fun interrupt node => { node with interrupt },
   namesPart "on_error" Node.onError fun onError node => { node with onError },
   checkpointPart,
   namesPart "jumpback" Node.jumpback fun jumpback node => { node with jumpback },
   timePart "timeout" Node.timeout fun timeout node => { node with timeout },
   timePart "rate_limit" Node.rateLimit fun rateLimit node => { node with rateLimit },
   timePart "pre_delay" Node.preDelay fun preDelay node => { node with preDelay },
   timePart "post_delay" Node.postDelay fun postDelay node => { node with postDelay },
   waitPart "pre_wait_freezes" Node.preWait fun preWait node => { node with preWait },
   waitPart "post_wait_freezes" Node.postWait fun postWait node => { node with postWait },
   recognitionPart,
   actionPart,
   focusPart]

/-! ## The form of a definition -/

theorem readNames_eq_ok_iff {value : Json} {names : List String} :
    readNames value = .ok names ↔ IsNames value names := by
  cases value with
  | string name =>
    simp [readNames, Decode.firstOf, Decode.text, Decode.textAs, Except.map, Except.toOption,
      IsNames, Json.ofStrings, eq_comm]
  | array items =>
    have reads : readNames (.array items) = .ok names ↔
        Decode.list Decode.text (.array items) = .ok names := by
      simp only [readNames, Decode.firstOf, Decode.text, Decode.textAs, Except.map, Except.toOption,
        List.findSome?_cons, List.findSome?_nil]
      cases Decode.list (Decode.textAs "a string") (.array items) with
      | error cause => simp
      | ok given => simp
    rw [reads, Decode.list_text_eq_ok_iff, IsNames]
    simp
  | _ =>
    simp [readNames, Decode.firstOf, Decode.text, Decode.textAs, Decode.list, Except.map,
      Except.toOption, IsNames, Json.ofStrings]

section Fits

variable {given : Json → Prop}

/-- A field that null leaves as it is fits a part that ignores null. -/
theorem fits_nullable {β : Type} (part : RecordPart Node) {read : Reads β}
    {put : β → Node → Node} (make : β → part.Part) (ignores : part.ignoresNull = true)
    (means : ∀ value new, given value →
      (part.Means value new ↔ ∃ found, read value = .ok found ∧ new = make found))
    (puts : ∀ found node, put found node = part.put (make found) node) :
    RecordPart.Fits given (nullable part.key read put) part where
  key := rfl
  set_iff value node node' isGiven := by
    simp only [nullable, FieldForm.of, map_eq_ok_iff]
    cases value with
    | null => simp [Decode.optional, RecordPart.Sets, RecordPart.heed, ignores]
    | _ =>
      simp only [Decode.optional, map_eq_ok_iff, RecordPart.Sets, RecordPart.heed,
        means _ _ isGiven]
      constructor
      · rintro ⟨_, ⟨found, reads, rfl⟩, rfl⟩
        exact ⟨_, ⟨found, reads, rfl⟩, puts found node⟩
      · rintro ⟨_, ⟨found, reads, rfl⟩, rfl⟩
        exact ⟨_, ⟨found, reads, rfl⟩, (puts found node).symm⟩

/-- A field that reads what a value says fits the part that is said unless it is null. -/
theorem fits_nullablePart {β : Type} {key : String} {read : Reads β} {Means : Json → β → Prop}
    {get : Node → β} {put : β → Node → Node}
    (reads : ∀ value new, given value → (read value = .ok new ↔ Means value new)) :
    RecordPart.Fits given (nullable key read put) (nullablePart key Means get put) := by
  refine fits_nullable (nullablePart key Means get put) id rfl (fun value new isGiven => ?_)
    fun _ _ => rfl
  constructor
  · exact fun means => ⟨new, (reads value new isGiven).mpr means, rfl⟩
  · rintro ⟨_, isFound, rfl⟩
    exact (reads value _ isGiven).mp isFound

theorem fits_flag {key : String} {get : Node → Bool} {put : Bool → Node → Node} :
    RecordPart.Fits given (nullable key Decode.bool put) (flagPart key get put) :=
  fits_nullablePart fun _ _ _ => Decode.bool_eq_ok_iff

theorem fits_time {key : String} {get : Node → UInt64} {put : UInt64 → Node → Node} :
    RecordPart.Fits given (nullable key Decode.uint64 put) (timePart key get put) :=
  fits_nullablePart fun _ _ _ => Decode.uint64_eq_ok_iff

theorem fits_names {key : String} {get : Node → List String} {put : List String → Node → Node} :
    RecordPart.Fits given (nameList key put) (namesPart key get put) :=
  .saying fun _ _ _ => readNames_eq_ok_iff

end Fits

theorem fits_wait {key : String} {get : Node → WaitFreezes} {put : WaitFreezes → Node → Node} :
    RecordPart.Fits Json.Sound (nullable key WaitFreezes.read put) (waitPart key get put) :=
  fits_nullablePart fun _ _ sound => WaitFreezes.read_iff fun _ same => (same ▸ sound).nodup_keys

theorem fits_recognition :
    RecordPart.Fits Json.Sound
      (.of "recognition" .never RecoParam.read fun recognition node => { node with recognition })
      recognitionPart :=
  .saying fun _ _ sound => RecoParam.read_iff fun _ _ gives => (gives.sound sound).nodup_keys

theorem fits_action :
    RecordPart.Fits Json.Sound
      (.of "action" .never ActionParam.read fun action node => { node with action }) actionPart :=
  .saying fun _ _ sound => ActionParam.read_iff fun _ _ gives => (gives.sound sound).nodup_keys

theorem eq_labelSet_iff {set : Std.ExtTreeSet String} {labels : List String} :
    set = labelSet labels ↔ ∀ label, label ∈ set ↔ label ∈ labels := by
  constructor
  · rintro rfl label
    simp [labelSet]
  · intro same
    apply Std.ExtTreeSet.ext_mem
    intro label
    rw [same]
    simp [labelSet]

theorem form_fits : List.Forall₂ (RecordPart.Fits Json.Sound) form.fields parts := by
  refine .cons fits_flag <| .cons ?maxHit <| .cons fits_flag <| .cons fits_names <|
    .cons fits_names <| .cons fits_names <| .cons ?checkpoint <| .cons fits_names <|
    .cons fits_time <| .cons fits_time <| .cons fits_time <| .cons fits_time <|
    .cons fits_wait <| .cons fits_wait <| .cons fits_recognition <| .cons fits_action <|
    .cons ?focus .nil
  case maxHit => exact fits_nullablePart fun _ _ _ => Decode.uint32_eq_ok_iff
  case checkpoint =>
    apply RecordPart.Fits.of_reads checkpointPart labelSet rfl
    · simp [checkpointPart, RecordPart.saying, readNames_eq_ok_iff, eq_labelSet_iff]
    · exact fun _ _ => rfl
  case focus =>
    apply fits_nullable focusPart some rfl
    · simp [focusPart, nullablePart, Decode.anything]
    · exact fun _ _ => rfl

/-- **The parts of a node describe the form of its definition.** -/
theorem form_describes : form.Describes Json.Sound parts Node.name where
  fit := form_fits
  optional := by decide
  distinct := by decide
  get_put := by
    simp only [parts, List.forall_mem_cons, List.not_mem_nil, false_implies, implies_true, and_true]
    and_intros
    all_goals exact fun _ _ => rfl
  apart := by
    simp only [parts, List.pairwise_cons, List.forall_mem_cons, List.not_mem_nil, false_implies,
      implies_true, List.Pairwise.nil, and_true]
    and_intros
    all_goals exact ⟨fun _ _ => rfl, fun _ _ => rfl⟩
  rest_put := by
    simp only [parts, List.forall_mem_cons, List.not_mem_nil, false_implies, implies_true, and_true]
    and_intros
    all_goals exact fun _ _ => rfl
  ext node node' same alike := by
    simp only [parts, List.forall_mem_cons, List.not_mem_nil, false_implies, implies_true,
      and_true] at alike
    cases node
    cases node'
    simp_all [flagPart, maxHitPart, namesPart, checkpointPart, timePart, waitPart,
      recognitionPart, actionPart, focusPart, nullablePart, RecordPart.saying]

/-! ## What can be read -/

section Legible

variable {key : String} {entry : Option Json}

end Legible

end Node

end ScreenPilot
