import ScreenPilot.Node.Param
import ScreenPilot.Proofs.Json.Tagged
import ScreenPilot.Proofs.Json.Values

/-!
# Recognitions in documents

A document gives a kind of recognition and the contents that belong to it (`Json.Gives`), and the
contents tell what recognition it is (`RecoParam.Tells`); a document is read as the recognition of
the kind that its contents say (`RecoParam.read_iff`). Whatever a recognition was read from, the
form it is written in is read as the same recognition (`RecoParam.round_trips`). So this form is
the canonical one: it is the same for all documents that are read alike, and it holds nothing else.

A payload is any value. It may be null, or an object with the keys `type` and `param`, as the
contents of a document are never taken for a document.
-/

set_option autoImplicit false

namespace ScreenPilot

namespace VisionKind

theorem ofName?_name (kind : VisionKind) : ofName? kind.name = some kind := by
  cases kind <;> rfl

theorem name_of_ofName? {name : String} {kind : VisionKind} (named : ofName? name = some kind) :
    kind.name = name := by
  rw [ofName?] at named
  simpa using List.find?_some named

end VisionKind

namespace RecoParam

/-- Contents tell what a recognition is. -/
inductive Tells : Option Json → RecoParam → Prop where
  | directHit : Tells none .directHit
  | directHit_null : Tells (some .null) .directHit
  | vision (kind : VisionKind) (param : Json) : Tells (some param) (.vision kind param)
  /-- Without a payload the payload is null. -/
  | custom {entries : List (String × Json)} {name : String}
      (named : entries.lookup "name" = some (.string name)) :
      Tells (some (.object entries)) (.custom name ((entries.lookup "param").getD .null))

/-- A document means a recognition: it gives its kind, and contents that tell it. -/
def Means (value : Json) (reco : RecoParam) : Prop :=
  ∃ contents, value.Gives reco.kind contents ∧ Tells contents reco

theorem kind_mem_kinds (reco : RecoParam) : reco.kind ∈ kinds := by
  cases reco with
  | vision kind param => cases kind <;> simp [RecoParam.kind, kinds, VisionKind.all]
  | _ => simp [RecoParam.kind, kinds]

/-- The parts of the contents of a registered recognition. -/
def customParts : List (RecordPart (String × Json)) :=
  [.saying "name" (fun value name => value = .string name) Prod.fst
     fun name part => (name, part.2),
   .saying "param" Eq Prod.snd fun param part => (part.1, param)]

theorem customForm_splits : customForm.Splits (fun _ => True) customParts where
  fit := by
    refine .cons (.saying ?name) <| .cons (.saying ?param) .nil
    case name => exact fun _ _ _ => Decode.text_eq_ok_iff
    case param => exact fun _ _ _ => ⟨Except.ok.inj, congrArg Except.ok⟩
  distinct := by decide
  get_put := by
    simp only [customParts, List.forall_mem_cons, List.not_mem_nil, false_implies, implies_true,
      and_true]
    exact ⟨fun _ _ => rfl, fun _ _ => rfl⟩
  apart := List.pairwise_pair.mpr ⟨fun _ _ => rfl, fun _ _ => rfl⟩

/-- **The contents of a registered recognition.** -/
theorem ofContents_custom_iff {contents : Option Json} {name : String} {param : Json}
    (distinct : ∀ entries, contents = some (.object entries) → (entries.map Prod.fst).Nodup) :
    ofContents "Custom" contents = .ok (.custom name param) ↔
      Tells contents (.custom name param) := by
  refine (Decode.fieldContents_map_eq_ok_iff customForm_splits rfl ?ofParts distinct
    fun _ _ _ _ => trivial).trans ?_
  case ofParts =>
    intro given given' alike
    simp only [customParts, List.forall_mem_cons] at alike
    exact congrArg₂ RecoParam.custom alike.1 alike.2.1
  simp only [RecordForm.absent_eq_nil_iff, customForm, customParts, List.forall_mem_cons,
    List.not_mem_nil, false_implies, implies_true, and_true, RecordPart.follows_saying_iff,
    Json.says_value_iff, FieldForm.of, reduceCtorEq, forall_const]
  constructor
  · rintro ⟨entries, rfl, there, given, ⟨isName, isParam⟩, same⟩
    cases same
    obtain ⟨_, named, rfl⟩ := Json.says_and_exists_iff.mp ⟨there, isName⟩
    exact isParam ▸ .custom named
  · intro tells
    cases tells with
    | custom named => exact ⟨_, rfl, ⟨_, named⟩, (name, _), ⟨.of_some named rfl, rfl⟩, rfl⟩

theorem eq_directHit {kind : String} (isKnown : kind ∈ kinds)
    (noVision : VisionKind.ofName? kind = none) (noCustom : kind ≠ "Custom") :
    kind = "DirectHit" := by
  simp only [kinds, List.mem_append, List.mem_singleton, List.mem_map, noCustom, or_false]
    at isKnown
  rcases isKnown with same | ⟨vision, -, rfl⟩
  · exact same
  · rw [VisionKind.ofName?_name] at noVision
    exact nomatch noVision

/-- **What contents of a kind are read as.** -/
theorem ofContents_eq_ok_iff {kind : String} (isKnown : kind ∈ kinds) {contents : Option Json}
    {reco : RecoParam}
    (distinct : ∀ entries, contents = some (.object entries) → (entries.map Prod.fst).Nodup) :
    ofContents kind contents = .ok reco ↔ reco.kind = kind ∧ Tells contents reco := by
  constructor
  · intro reads
    unfold ofContents at reads
    split at reads
    · rename_i vision named
      cases contents with
      | none => exact nomatch reads
      | some value =>
        cases reads
        exact ⟨VisionKind.name_of_ofName? named, .vision vision value⟩
    · rename_i noVision
      split at reads
      · rename_i isCustom
        obtain ⟨⟨name, param⟩, -, rfl⟩ := map_eq_ok_iff.mp reads
        exact ⟨isCustom.symm, (ofContents_custom_iff distinct).mp reads⟩
      · rename_i noCustom
        have isDirectHit := eq_directHit isKnown noVision noCustom
        unfold Decode.noContents at reads
        split at reads
        · cases reads
          exact ⟨isDirectHit.symm, .directHit⟩
        · cases reads
          exact ⟨isDirectHit.symm, .directHit_null⟩
        · exact nomatch reads
  · rintro ⟨rfl, tells⟩
    cases tells with
    | directHit | directHit_null => rfl
    | vision vision param =>
      simp only [ofContents, RecoParam.kind, VisionKind.ofName?_name]
      rfl
    | custom named => exact (ofContents_custom_iff distinct).mpr (.custom named)

/-- **What a document is read as**: the recognition of the kind that it gives, as its contents
say. -/
theorem read_iff {value : Json} {reco : RecoParam}
    (distinct : ∀ kind entries, value.Gives kind (some (.object entries)) →
      (entries.map Prod.fst).Nodup) :
    read value = .ok reco ↔ Means value reco := by
  refine Decode.tagged_iff_gives (kind_mem_kinds reco) fun kind isKnown contents gives => ?_
  exact ofContents_eq_ok_iff isKnown fun entries same => distinct kind entries (same ▸ gives)

/-! ## The written form -/

/-- The contents of the written form. -/
def contents : RecoParam → Option Json
  | .directHit => none
  | .vision _ param => some param
  | .custom name param => some (.object [("name", .string name), ("param", param)])

/-- The written form holds the kind and the contents, if there are any. -/
theorem toJson_eq (reco : RecoParam) :
    reco.toJson = .object
      (reco.contents.toList.map (("param", ·)) ++ [("type", .string reco.kind)]) := by
  cases reco <;> rfl

theorem tells_contents (reco : RecoParam) : Tells reco.contents reco := by
  cases reco with
  | directHit => exact .directHit
  | vision kind param => exact .vision kind param
  | custom name param => exact .custom rfl

/-- What is written is read as what it was. -/
theorem read_toJson (reco : RecoParam) : read reco.toJson = .ok reco := by
  cases reco with
  | directHit => rfl
  | vision kind param => cases kind <;> rfl
  | custom name param => rfl

/-- **Recognitions survive being written and read.** What is written is read as what it was, with
any payload. What was read, from whatever document, is written in the form that holds the kind and
the contents, and nothing else; the contents of a registered recognition always hold its payload.
A document is read as the recognition of the kind it gives, as its contents tell; so other keys of
the document do not matter, and a registered recognition without a payload has a null one. -/
theorem round_trips :
    (∀ reco : RecoParam, read reco.toJson = .ok reco) ∧
    (∀ value reco, read value = .ok reco →
      read reco.toJson = .ok reco ∧ Tells reco.contents reco ∧
        reco.toJson = .object
          (reco.contents.toList.map (("param", ·)) ++ [("type", .string reco.kind)])) ∧
    (∀ value other reco reco', read value = .ok reco → read other = .ok reco' →
      (reco.toJson = reco'.toJson ↔ reco = reco')) ∧
    ∀ value reco,
      (∀ kind entries, value.Gives kind (some (.object entries)) →
        (entries.map Prod.fst).Nodup) →
      (read value = .ok reco ↔
        ∃ contents, value.Gives reco.kind contents ∧ Tells contents reco) := by
  refine ⟨read_toJson, fun _ reco _ => ⟨read_toJson reco, tells_contents reco, toJson_eq reco⟩,
    fun _ _ reco reco' _ _ => ⟨fun same => ?_, congrArg toJson⟩, fun _ _ => read_iff⟩
  have reads : read reco'.toJson = .ok reco := same ▸ read_toJson reco
  exact Except.ok.inj (reads.symm.trans (read_toJson reco'))

/-- A document of a registered recognition without a payload, with a key that means nothing. -/
def finderDocument : Json :=
  .object [("param", .object [("name", .string "finder")]), ("type", .string "Custom"),
    ("zoom", .integer 3)]

/-- The payload that is missing is written as null, and the other key is not written. -/
theorem round_trips_finder :
    read finderDocument = .ok (.custom "finder" .null) ∧
    (custom "finder" .null).toJson =
      .object [("param", .object [("name", .string "finder"), ("param", .null)]),
        ("type", .string "Custom")] ∧
    read (custom "finder" .null).toJson = .ok (.custom "finder" .null) ∧
    ∃ contents, finderDocument.Gives "Custom" contents ∧
      Tells contents (.custom "finder" .null) := by
  have reads : read finderDocument = .ok (.custom "finder" .null) := rfl
  have distinct : ∀ kind entries, finderDocument.Gives kind (some (.object entries)) →
      (entries.map Prod.fst).Nodup := by
    intro kind entries gives
    generalize contents : some (Json.object entries) = given at gives
    cases gives with
    | object =>
      cases contents
      decide
  obtain ⟨-, again, -, means⟩ := round_trips
  obtain ⟨sameAgain, -, written⟩ := again finderDocument _ reads
  exact ⟨reads, written, sameAgain, (means finderDocument _ distinct).mp reads⟩

/-- A payload may look like a document. -/
example : read (vision .ocr (.object [("param", .null), ("type", .string "Custom")])).toJson =
    .ok (.vision .ocr (.object [("param", .null), ("type", .string "Custom")])) := rfl

end RecoParam

end ScreenPilot
