import ScreenPilot.Json.Decode
import ScreenPilot.Proofs.Json.Records

/-!
# Values that are read

What the readers of basic types accept, and what they make of it: flags, texts, whole numbers within
the bounds of a type, lists, and unions whose first reading that accepts a value is taken.
-/

set_option autoImplicit false

namespace ScreenPilot

namespace Decode

/-- The value is a whole number that is less than a bound. -/
def IsNat (value : Json) (bound number : Nat) : Prop :=
  ∃ written : Int, value = .integer written ∧ 0 ≤ written ∧ written < bound ∧
    (number : Int) = written

/-- The value is a time in milliseconds. -/
def IsTime (value : Json) (time : UInt64) : Prop := IsNat value UInt64.size time.toNat

theorem bool_eq_ok_iff {value : Json} {flag : Bool} :
    Decode.bool value = .ok flag ↔ value = .bool flag := by
  cases value <;> simp [Decode.bool]

theorem text_eq_ok_iff {value : Json} {text : String} :
    Decode.text value = .ok text ↔ value = .string text := by
  cases value <;> simp [Decode.text, Decode.textAs]

theorem integerIn_eq_ok_iff {expected : String} {least greatest number : Int} {value : Json} :
    Decode.integerIn expected least greatest value = .ok number ↔
      value = .integer number ∧ least ≤ number ∧ number ≤ greatest := by
  cases value with
  | integer written =>
    simp only [Decode.integerIn]
    split
    case isTrue within =>
      simp only [Except.ok.injEq, Json.integer.injEq]
      constructor
      · rintro rfl
        exact ⟨rfl, within⟩
      · exact And.left
    case isFalse outside =>
      simp only [reduceCtorEq, Json.integer.injEq, false_iff]
      rintro ⟨rfl, within⟩
      exact outside within
  | _ => simp [Decode.integerIn]

theorem uint32_eq_ok_iff {value : Json} {number : UInt32} :
    Decode.uint32 value = .ok number ↔ IsNat value UInt32.size number.toNat := by
  simp only [Decode.uint32, map_eq_ok_iff, integerIn_eq_ok_iff, IsNat]
  constructor
  · rintro ⟨written, ⟨rfl, low, high⟩, rfl⟩
    refine ⟨written, rfl, low, by omega, ?_⟩
    rw [UInt32.toNat_ofNat_of_lt' (by omega), Int.toNat_of_nonneg low]
  · rintro ⟨written, rfl, low, less, same⟩
    refine ⟨written, ⟨rfl, low, by omega⟩, ?_⟩
    rw [← same, Int.toNat_natCast, UInt32.ofNat_toNat]

theorem uint64_eq_ok_iff {value : Json} {number : UInt64} :
    Decode.uint64 value = .ok number ↔ IsNat value UInt64.size number.toNat := by
  simp only [Decode.uint64, map_eq_ok_iff, integerIn_eq_ok_iff, IsNat]
  constructor
  · rintro ⟨written, ⟨rfl, low, high⟩, rfl⟩
    refine ⟨written, rfl, low, by omega, ?_⟩
    rw [UInt64.toNat_ofNat_of_lt' (by omega), Int.toNat_of_nonneg low]
  · rintro ⟨written, rfl, low, less, same⟩
    refine ⟨written, ⟨rfl, low, by omega⟩, ?_⟩
    rw [← same, Int.toNat_natCast, UInt64.ofNat_toNat]

theorem int32_eq_ok_iff {value : Json} {number : Int32} :
    Decode.int32 value = .ok number ↔ value = .integer number.toInt := by
  simp only [Decode.int32, map_eq_ok_iff, integerIn_eq_ok_iff]
  constructor
  · rintro ⟨written, ⟨rfl, low, high⟩, rfl⟩
    rw [Int32.toInt_maxValue] at high
    rw [Int32.toInt_ofInt_of_le low (by omega)]
  · rintro rfl
    refine ⟨number.toInt, ⟨rfl, number.minValue_le_toInt, ?_⟩, number.ofInt_toInt.symm⟩
    exact number.toInt_le

/-- If each item is read as what would be written so, the whole list is. -/
theorem list_eq_ok_iff {α : Type} {read : Reads α} {write : α → Json}
    (reads : ∀ value item, read value = .ok item ↔ value = write item) {value : Json}
    {list : List α} : Decode.list read value = .ok list ↔ value = .array (list.map write) := by
  cases value with
  | array items =>
    simp only [Decode.list, Json.array.injEq]
    induction items generalizing list with
    | nil => cases list <;> simp [pure, Except.pure]
    | cons item items ih =>
      rw [List.mapM_cons]
      simp only [bind_eq_ok_iff, reads, ih, pure, Except.pure, Except.ok.injEq]
      cases list with
      | nil => simp
      | cons first list => simp
  | _ => simp [Decode.list]

theorem list_text_eq_ok_iff {value : Json} {texts : List String} :
    Decode.list Decode.text value = .ok texts ↔ value = .ofStrings texts :=
  list_eq_ok_iff fun _ _ => text_eq_ok_iff

theorem firstOf_eq_ok_iff {α : Type} {union : String} {readings : List (Reads α)} {value : Json}
    {result : α} : Decode.firstOf union readings value = .ok result ↔
      readings.findSome? (fun read => (read value).toOption) = some result := by
  unfold Decode.firstOf
  split
  · rename_i found isFirst
    rw [isFirst, Except.ok.injEq, Option.some.injEq]
  · rename_i none
    rw [none]
    exact ⟨nofun, nofun⟩

end Decode

end ScreenPilot
