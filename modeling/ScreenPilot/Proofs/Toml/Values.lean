import ScreenPilot.Proofs.Toml.Texts
import ScreenPilot.Toml.Reader

/-!
# Written values are read back

A truth value, a number or a text that is written on a line is read back as what it is
(`readValue_write`). A number is a sign and digits, and no reader that comes before the one for
whole numbers takes these for something else: there is no mark, point or exponent behind them
(`readScalar_integer`).
-/

set_option autoImplicit false

namespace ScreenPilot

namespace Toml

/-! ## Digits -/

theorem digitValue?_of_isDigit {char : Char} (digit : char.isDigit = true) :
    Text.digitValue? 10 char = some (char.toNat - '0'.toNat) := by
  simp only [Char.isDigit, Bool.and_eq_true, decide_eq_true_eq] at digit
  have low : '0' ≤ char := digit.1
  have high : char ≤ '9' := digit.2
  have less : char.toNat ≤ '9'.toNat := digit.2
  simp only [Text.digitValue?, low, high, and_self, if_true]
  exact if_pos (by simp at less ⊢; omega)

/-- Decimal digits make the number they stand for. -/
theorem numberOf?_digits {digits : List Char} (isDigits : ∀ char ∈ digits, char.isDigit = true) :
    Text.numberOf? 10 digits = some (Nat.ofDigitChars 10 digits 0) := by
  rw [Text.numberOf?, Nat.ofDigitChars_eq_foldl]
  generalize 0 = number
  induction digits generalizing number with
  | nil => rfl
  | cons digit digits ih =>
    obtain ⟨isDigit, isDigits⟩ := List.forall_mem_cons.mp isDigits
    rw [List.foldlM_cons, digitValue?_of_isDigit isDigit]
    exact ih isDigits _

/-- No number is made with a character that is no digit. -/
theorem numberOf?_of_mem {base : Nat} {digits : List Char} {char : Char} (member : char ∈ digits)
    (noDigit : Text.digitValue? base char = none) : Text.numberOf? base digits = none := by
  rw [Text.numberOf?]
  generalize 0 = number
  induction digits generalizing number with
  | nil => exact nomatch member
  | cons digit digits ih =>
    rw [List.foldlM_cons]
    rcases List.mem_cons.mp member with rfl | member
    · rw [noDigit]
      rfl
    · cases Text.digitValue? base digit with
      | none => rfl
      | some value => exact ih member _

/-- Digits of a number, without a needless zero in front. -/
structure IsNumeral (digits : List Char) : Prop where
  isDigit : ∀ char ∈ digits, char.isDigit = true
  ne_nil : digits ≠ []
  plain : ∀ rest, digits = '0' :: rest → rest = []

theorem digitChar_ne_zero :
    ∀ number < 10, 0 < number → Nat.digitChar number ≠ '0' := by
  decide

theorem toDigits_ne_zero_cons {number : Nat} (positive : 0 < number) (rest : List Char) :
    Nat.toDigits 10 number ≠ '0' :: rest := by
  induction number using Nat.strong_induction_on generalizing rest with
  | _ number ih =>
    rw [Nat.toDigits_eq_if (by decide)]
    split
    · rename_i less
      exact fun same => digitChar_ne_zero number less positive (List.cons.inj same).1
    · intro same
      obtain ⟨first, more, isFirst⟩ := List.exists_cons_of_ne_nil
        (Nat.toDigits_ne_nil (b := 10) (n := number / 10))
      rw [isFirst] at same
      obtain rfl : first = '0' := (List.cons.inj same).1
      exact ih (number / 10) (by omega) (by omega) more isFirst

theorem isNumeral_toDigits (number : Nat) : IsNumeral (Nat.toDigits 10 number) where
  isDigit _ := Nat.isDigit_of_mem_toDigits (by decide) (by decide)
  ne_nil := Nat.toDigits_ne_nil
  plain := by
    intro rest same
    rcases Nat.eq_zero_or_pos number with rfl | positive
    · exact (List.cons.inj ((Nat.toDigits_zero 10).symm.trans same)).2.symm
    · exact absurd same (toDigits_ne_zero_cons positive rest)

/-! ## Whole numbers -/

section Numeral

variable {numeral : List Char} (rest : List Char)

theorem digitValue?_break : Text.digitValue? 10 '\n' = none := rfl

theorem moreDigits_append (isDigit : ∀ char ∈ numeral, char.isDigit = true) :
    moreDigits 10 (numeral ++ '\n' :: rest) = (numeral, '\n' :: rest) := by
  induction numeral with
  | nil => rw [List.nil_append, moreDigits, digitValue?_break] <;> first | rfl | nofun
  | cons digit digits ih =>
    obtain ⟨isFirst, isDigit⟩ := List.forall_mem_cons.mp isDigit
    rw [List.cons_append, moreDigits, digitValue?_of_isDigit isFirst, ih isDigit]
    · rfl
    · rintro _ _ rfl
      cases isFirst

theorem decimalDigits_append (isNumeral : IsNumeral numeral) :
    decimalDigits (numeral ++ '\n' :: rest) = some (numeral, '\n' :: rest) := by
  obtain ⟨isDigit, noEmpty, plain⟩ := isNumeral
  cases numeral with
  | nil => exact absurd rfl noEmpty
  | cons digit numeral =>
    by_cases zero : digit = '0'
    · subst zero
      rw [plain numeral rfl]
      rfl
    · obtain ⟨isFirst, isDigit⟩ := List.forall_mem_cons.mp isDigit
      rw [List.cons_append, decimalDigits, digits, digitValue?_of_isDigit isFirst,
        moreDigits_append _ isDigit]
      · rfl
      · exact fun _ same => zero (List.cons.inj same).1

/-- The sign of a number, if it has one. -/
def minus (negative : Bool) : List Char := if negative then ['-'] else []

theorem sign_append (negative : Bool) (isNumeral : IsNumeral numeral) :
    sign (minus negative ++ (numeral ++ '\n' :: rest)) =
      (negative, numeral ++ '\n' :: rest) := by
  cases negative with
  | true => rfl
  | false =>
    obtain ⟨isDigit, noEmpty, -⟩ := isNumeral
    cases numeral with
    | nil => exact absurd rfl noEmpty
    | cons digit numeral =>
      have isFirst := isDigit digit List.mem_cons_self
      show sign (digit :: (numeral ++ _)) = _
      rw [sign]
      · rfl
      all_goals
        intro _ same
        obtain rfl := (List.cons.inj same).1
        cases isFirst

/-- A whole number is no number in another base. -/
theorem no_base (negative : Bool) (isNumeral : IsNumeral numeral) {mark : Char}
    (noBreak : mark ≠ '\n') (rest' : List Char) :
    minus negative ++ (numeral ++ '\n' :: rest) ≠ '0' :: mark :: rest' := by
  obtain ⟨isDigit, noEmpty, plain⟩ := isNumeral
  cases negative with
  | true => nofun
  | false =>
    cases numeral with
    | nil => exact absurd rfl noEmpty
    | cons digit numeral =>
      intro same
      obtain ⟨rfl, later⟩ := List.cons.inj same
      rw [plain numeral rfl] at later
      exact noBreak (List.cons.inj later).1.symm

theorem readInteger_append (negative : Bool) (isNumeral : IsNumeral numeral) :
    readInteger (minus negative ++ (numeral ++ '\n' :: rest)) =
      (wholeNumber negative (Nat.ofDigitChars 10 numeral 0)).map (·, '\n' :: rest) := by
  have signed := sign_append rest negative isNumeral
  have counted := decimalDigits_append rest isNumeral
  have made := numberOf?_digits isNumeral.isDigit
  rw [readInteger]
  · simp only [signed, counted, Option.bind_eq_bind, Option.bind_some, made]
    cases wholeNumber negative (Nat.ofDigitChars 10 numeral 0) <;> rfl
  all_goals exact fun rest' => no_base _ negative isNumeral (by decide) rest'

/-! ## What a whole number is not -/

theorem readFloat_append (negative : Bool) (isNumeral : IsNumeral numeral) :
    readFloat (minus negative ++ (numeral ++ '\n' :: rest)) = none := by
  have signed := sign_append rest negative isNumeral
  have counted := decimalDigits_append rest isNumeral
  simp only [readFloat, signed, counted, Option.bind_eq_bind, Option.bind_some]
  rfl

theorem readSpecial_append (negative : Bool) (isNumeral : IsNumeral numeral) :
    readSpecial (minus negative ++ (numeral ++ '\n' :: rest)) = none := by
  have signed := sign_append rest negative isNumeral
  obtain ⟨isDigit, noEmpty, -⟩ := isNumeral
  cases numeral with
  | nil => exact absurd rfl noEmpty
  | cons digit numeral =>
    have isFirst := isDigit digit List.mem_cons_self
    simp only [readSpecial, signed]
    split
    case h_3 => rfl
    all_goals
      rename_i same
      obtain rfl := (List.cons.inj same).1
      cases isFirst

/-- The digits of a part of a date stand in front of the line break. -/
theorem fixedNumber_append {count least greatest number : Nat} {after : List Char}
    (reads : fixedNumber count least greatest (numeral ++ '\n' :: rest) = some (number, after)) :
    after = numeral.drop count ++ '\n' :: rest := by
  simp only [fixedNumber] at reads
  split at reads
  · cases reads
  · rcases Nat.lt_or_ge numeral.length count with more | fits
    · have beyond : '\n' ∈ (numeral ++ '\n' :: rest).take count := by
        rw [List.take_append, List.mem_append]
        right
        obtain ⟨surplus, same⟩ := Nat.exists_eq_add_of_lt more
        rw [same, show numeral.length + surplus + 1 - numeral.length = surplus + 1 by omega]
        exact List.mem_cons_self
      rw [numberOf?_of_mem beyond digitValue?_break] at reads
      cases reads
    · rw [List.drop_append_of_le_length fits] at reads
      obtain ⟨_, -, reads⟩ := Option.bind_eq_some_iff.mp reads
      split at reads
      · exact (Prod.mk.inj (Option.some.inj reads)).2.symm
      · cases reads

/-- Nothing but digits stands in front of the line break. -/
theorem expect_append (isDigit : ∀ char ∈ numeral, char.isDigit = true) {mark : Char}
    (noDigit : mark.isDigit = false) (noBreak : mark ≠ '\n') :
    expect mark (numeral ++ '\n' :: rest) = none := by
  cases numeral with
  | nil => exact if_neg noBreak.symm
  | cons digit numeral =>
    refine if_neg fun same => ?_
    have isFirst := isDigit digit List.mem_cons_self
    rw [same, noDigit] at isFirst
    cases isFirst

/-- Behind the digits of a whole number there is no mark. -/
theorem expect_fixedNumber (negative : Bool) (isDigit : ∀ char ∈ numeral, char.isDigit = true)
    (mark : Char) (noDigit : mark.isDigit = false) (noBreak : mark ≠ '\n')
    {count least greatest number : Nat} {after : List Char}
    (reads : fixedNumber (count + 1) least greatest (minus negative ++ (numeral ++ '\n' :: rest)) =
      some (number, after)) : expect mark after = none := by
  cases negative with
  | true =>
    replace reads : fixedNumber (count + 1) least greatest ('-' :: (numeral ++ '\n' :: rest)) =
      some (number, after) := reads
    rw [fixedNumber, List.take_succ_cons, numberOf?_of_mem List.mem_cons_self rfl] at reads
    split at reads <;> cases reads
  | false =>
    rw [fixedNumber_append _ reads]
    exact expect_append _ (fun char member => isDigit char (List.mem_of_mem_drop member)) noDigit
      noBreak

theorem afterDate_append (negative : Bool) (isDigit : ∀ char ∈ numeral, char.isDigit = true) :
    afterDate (minus negative ++ (numeral ++ '\n' :: rest)) = none := by
  refine Option.bind_eq_none_iff.mpr ?_
  rintro ⟨year, after⟩ reads
  simp only [expect_fixedNumber rest negative isDigit '-' rfl (by decide) reads]
  rfl

theorem afterTime_append (negative : Bool) (isDigit : ∀ char ∈ numeral, char.isDigit = true) :
    afterTime (minus negative ++ (numeral ++ '\n' :: rest)) = none := by
  refine Option.bind_eq_none_iff.mpr ?_
  rintro ⟨hour, after⟩ reads
  simp only [expect_fixedNumber rest negative isDigit ':' rfl (by decide) reads]
  rfl

theorem readMoment_append (negative : Bool) (isDigit : ∀ char ∈ numeral, char.isDigit = true) :
    readMoment (minus negative ++ (numeral ++ '\n' :: rest)) = none := by
  rw [readMoment, afterDate_append _ negative isDigit, afterTime_append _ negative isDigit]
  rfl

/-- A whole number begins with a minus or a digit. -/
theorem exists_integer_cons (negative : Bool) (isNumeral : IsNumeral numeral) :
    ∃ first more, minus negative ++ (numeral ++ '\n' :: rest) = first :: more ∧
      ∀ mark : Char, mark ≠ '-' → mark.isDigit = false → first ≠ mark := by
  obtain ⟨isDigit, noEmpty, -⟩ := isNumeral
  cases negative with
  | true => exact ⟨_, _, rfl, fun mark noMinus _ => noMinus.symm⟩
  | false =>
    cases numeral with
    | nil => exact absurd rfl noEmpty
    | cons digit numeral =>
      refine ⟨digit, _, rfl, ?_⟩
      rintro mark - noDigit rfl
      exact nomatch (isDigit digit List.mem_cons_self).symm.trans noDigit

end Numeral

theorem readText_eq_none {first : Char} (noMark : first ≠ '"') (noSingle : first ≠ '\'')
    (more : List Char) : readText (first :: more) = none := by
  rw [readText] <;> simp_all

theorem readBool_eq_none {first : Char} (noTrue : first ≠ 't') (noFalse : first ≠ 'f')
    (more : List Char) : readBool (first :: more) = none := by
  rw [readBool] <;> simp_all

/-- A value that is neither an array nor a table is a scalar. -/
theorem readValue_eq {first : Char} (noArray : first ≠ '[') (noTable : first ≠ '\x7b')
    (depth : Nat) (more : List Char) :
    readValue depth (first :: more) = readScalar (first :: more) := by
  cases depth with
  | zero => rfl
  | succ depth => rw [readValue] <;> simp_all

/-- A text begins with a quotation mark. -/
theorem quoted_of_readText {chars : List Char} {result : String × List Char}
    (reads : readText chars = some result) :
    ∃ first more, chars = first :: more ∧ (first = '"' ∨ first = '\'') := by
  cases chars with
  | nil => cases reads
  | cons first more =>
    refine ⟨first, more, rfl, ?_⟩
    by_contra plain
    obtain ⟨noMark, noSingle⟩ := not_or.mp plain
    rw [readText_eq_none noMark noSingle] at reads
    cases reads

theorem toString_toList (number : Int) :
    (toString number).toList = minus (number < 0) ++ Nat.toDigits 10 number.natAbs := by
  cases number with
  | ofNat number =>
    show number.repr.toList = _
    rw [Nat.toList_repr, decide_eq_false (by simp)]
    rfl
  | negSucc number =>
    show ("-" ++ (number + 1).repr).toList = _
    rw [String.toList_append, Nat.toList_repr, decide_eq_true (Int.negSucc_lt_zero number)]
    rfl

theorem wholeNumber_natAbs (number : Int64) :
    wholeNumber (number.toInt < 0) number.toInt.natAbs = some (.integer number.toInt) := by
  have value : (if decide (number.toInt < 0) then -(number.toInt.natAbs : Int)
      else number.toInt.natAbs) = number.toInt := by
    simp only [decide_eq_true_eq]
    split
    case isTrue negative => omega
    case isFalse positive => omega
  rw [wholeNumber, value]
  exact if_pos ⟨number.minValue_le_toInt, number.toInt_le⟩

/-- The value that is written. -/
def Scalar.toToml : Scalar → Toml
  | .bool flag => .bool flag
  | .integer number => .integer number.toInt
  | .string text => .string text

/-- What is written begins with neither a blank nor a bracket. -/
theorem exists_write_cons (value : Scalar) (rest : List Char) :
    ∃ first more, value.write.toList ++ '\n' :: rest = first :: more ∧
      isBlank first = false ∧ first ≠ '[' ∧ first ≠ '\x7b' := by
  cases value with
  | bool flag => cases flag <;> exact ⟨_, _, rfl, by decide⟩
  | integer number =>
    obtain ⟨first, more, isFirst, differs⟩ := exists_integer_cons rest
      (number.toInt < 0) (isNumeral_toDigits number.toInt.natAbs)
    have noSpace := differs ' ' (by decide) rfl
    have noTab := differs '\t' (by decide) rfl
    refine ⟨first, more, ?_, by simp [isBlank, noSpace, noTab], differs _ (by decide) rfl,
      differs _ (by decide) rfl⟩
    show (toString number.toInt).toList ++ _ = _
    rw [toString_toList, List.append_assoc]
    exact isFirst
  | string text =>
    have reads := readText_writeText text ('\n' :: rest) nofun nofun
    obtain ⟨first, more, isFirst, quoted⟩ := quoted_of_readText reads
    refine ⟨first, more, isFirst, ?_⟩
    rcases quoted with rfl | rfl <;> decide

theorem readScalar_integer (number : Int64) (rest : List Char) :
    readScalar ((toString number.toInt).toList ++ '\n' :: rest) =
      some (.integer number.toInt, '\n' :: rest) := by
  have isNumeral := isNumeral_toDigits number.toInt.natAbs
  have isDigit := isNumeral.isDigit
  obtain ⟨first, more, isFirst, differs⟩ := exists_integer_cons rest (number.toInt < 0) isNumeral
  have noText : readText (first :: more) = none :=
    readText_eq_none (differs _ (by decide) rfl) (differs _ (by decide) rfl) more
  have noBool : readBool (first :: more) = none :=
    readBool_eq_none (differs _ (by decide) rfl) (differs _ (by decide) rfl) more
  rw [toString_toList, List.append_assoc, readScalar, isFirst, noText, noBool, ← isFirst,
    readMoment_append _ _ isDigit, readFloat_append _ _ isNumeral,
    readSpecial_append _ _ isNumeral, readInteger_append _ _ isNumeral,
    Nat.ofDigitChars_ten_toDigits, wholeNumber_natAbs]
  rfl

/-- **What is written on a line is read back.** -/
theorem readValue_write (depth : Nat) (value : Scalar) (rest : List Char) :
    readValue depth (value.write.toList ++ '\n' :: rest) = some (value.toToml, '\n' :: rest) := by
  obtain ⟨first, more, isFirst, -, noArray, noTable⟩ := exists_write_cons value rest
  rw [isFirst, readValue_eq noArray noTable, ← isFirst]
  cases value with
  | bool flag => cases flag <;> rfl
  | integer number => exact readScalar_integer number rest
  | string text =>
    show readScalar ((writeText text).toList ++ '\n' :: rest) = _
    rw [readScalar, readText_writeText text ('\n' :: rest) nofun nofun]
    rfl

end Toml

end ScreenPilot
