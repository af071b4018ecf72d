import Mathlib.Data.List.TakeWhile
import ScreenPilot.Toml.Writer

/-!
# Written texts are read back

Whatever stands in a text, it is read from what `writeText` makes of it (`readText_writeText`), as
long as no quotation mark follows. Each of the four forms has a reader of its own, and for each
there is one lemma about a single character and, from it, one about a whole text.

What ends a text in three marks is told from marks inside it by how many stand together: three or
more of them end the text, so a text that is read back has no such run (`closing?_of_short`), and
up to two marks at its end are read with the three that follow (`closing?_marks`).
-/

set_option autoImplicit false

namespace ScreenPilot

namespace Toml

/-! ## Characters -/

theorem isPrintable_of_not_isControl {char : Char} (plain : isControl char = false)
    (noBreak : char ≠ '\n') : isPrintable char = true := by
  simp_all [isControl, isPrintable]
  by_cases tab : char = '\t' <;> simp_all

/-- A control character is among the first 128. -/
theorem toNat_lt_of_isControl {char : Char} (control : isControl char = true) :
    char.toNat < 128 := by
  simp only [isControl, Bool.or_eq_true, Bool.and_eq_true, decide_eq_true_eq] at control
  omega

theorem scalar?_capitalDigits :
    ∀ number < 128, scalar? ['0', '0', capitalDigit (number / 16), capitalDigit (number % 16)] =
      some (Char.ofNat number) := by
  decide

/-- An escaped control character is read back. -/
theorem scalar?_of_isControl {char : Char} (control : isControl char = true) :
    scalar? ['0', '0', capitalDigit (char.toNat / 16), capitalDigit (char.toNat % 16)] =
      some char := by
  rw [scalar?_capitalDigits _ (toNat_lt_of_isControl control), Char.ofNat_toNat]

/-- What is written for a character begins with a backslash, or is the character. -/
theorem escapedChar_cons (char : Char) :
    ∃ first more, escapedChar char = first :: more ∧
      (first = '\\' ∨ first = char ∧ isControl char = false ∧ char ≠ '\n') := by
  unfold escapedChar
  split
  case h_7 noBreak _ _ =>
    split
    case isTrue => exact ⟨_, _, rfl, .inl rfl⟩
    case isFalse plain => exact ⟨_, _, rfl, .inr ⟨rfl, Bool.eq_false_iff.mpr plain, noBreak⟩⟩
  all_goals exact ⟨_, _, rfl, .inl rfl⟩

/-! ## Texts on one line -/

theorem basicText_of_printable {char : Char} (printable : isPrintable char = true)
    (noMark : char ≠ '"') (noEscape : char ≠ '\\') (rest : List Char) :
    basicText (char :: rest) = before char (basicText rest) := by
  rw [basicText] <;> simp_all

/-- A character that is written between double marks is read back. -/
theorem basicText_escapedChar {char : Char} (noMark : char ≠ '"') (rest : List Char) :
    basicText (escapedChar char ++ rest) = before char (basicText rest) := by
  unfold escapedChar
  split
  case h_7 noEscape _ _ noBreak _ _ =>
    split
    case isTrue control =>
      show (scalar? _).bind _ = _
      rw [scalar?_of_isControl control]
      rfl
    case isFalse plain =>
      have printable := isPrintable_of_not_isControl (Bool.eq_false_iff.mpr plain) noBreak
      exact basicText_of_printable printable noMark noEscape rest
  all_goals rfl

theorem basicText_writeBasic (chars rest : List Char) :
    basicText (writeBasic chars ++ '"' :: rest) = some (chars, rest) := by
  induction chars with
  | nil => rfl
  | cons char chars ih =>
    rw [writeBasic, List.flatMap_cons, List.append_assoc]
    split
    case isTrue mark =>
      subst mark
      exact congrArg (before '"') ih
    case isFalse noMark =>
      rw [basicText_escapedChar noMark]
      exact congrArg (before char) ih

theorem literalText_append {chars : List Char} (plain : chars.any isControl = false)
    (oneLine : '\n' ∉ chars) (noMark : '\'' ∉ chars) (rest : List Char) :
    literalText (chars ++ '\'' :: rest) = some (chars, rest) := by
  induction chars with
  | nil => rfl
  | cons char chars ih =>
    simp only [List.any_cons, Bool.or_eq_false_iff, List.mem_cons, not_or] at plain oneLine noMark
    have printable := isPrintable_of_not_isControl plain.1 (Ne.symm oneLine.1)
    rw [List.cons_append, literalText, if_pos printable, ih plain.2 oneLine.2 noMark.2]
    · rfl
    · exact Ne.symm noMark.1

/-! ## Marks that end a text -/

/-- How many marks stand in front. -/
def marks (mark : Char) (chars : List Char) : Nat := (chars.takeWhile (· = mark)).length

theorem marks_cons_self (mark : Char) (chars : List Char) :
    marks mark (mark :: chars) = marks mark chars + 1 := by
  simp [marks]

theorem marks_cons_of_ne {mark char : Char} (other : char ≠ mark) (chars : List Char) :
    marks mark (char :: chars) = 0 := by
  simp [marks, other]

theorem marks_eq_zero {mark : Char} {chars : List Char} (clear : chars.head? ≠ some mark) :
    marks mark chars = 0 := by
  cases chars with
  | nil => rfl
  | cons char chars => exact marks_cons_of_ne (fun same => clear (congrArg some same)) _

/-- Less than three marks do not end a text. -/
theorem closing?_of_short {mark : Char} {chars : List Char} (short : marks mark chars ≤ 2) :
    closing? mark chars = none := by
  rw [closing?]
  exact if_neg (by unfold marks at short; omega)

/-- Up to two marks are read with the three that follow them. -/
theorem closing?_marks {mark : Char} {count : Nat} (few : count ≤ 2) {rest : List Char}
    (clear : rest.head? ≠ some mark) :
    closing? mark (List.replicate count mark ++ mark :: mark :: mark :: rest) =
      some (List.replicate count mark, rest) := by
  have counted : marks mark (List.replicate count mark ++ mark :: mark :: mark :: rest) =
      count + 3 := by
    induction count with
    | zero => rw [List.replicate_zero, List.nil_append, marks_cons_self, marks_cons_self,
        marks_cons_self, marks_eq_zero clear]
    | succ count ih =>
      rw [List.replicate_succ, List.cons_append, marks_cons_self, ih (by omega)]
  unfold marks at counted
  have dropped : (List.replicate count mark ++ mark :: mark :: mark :: rest).drop (count + 3) =
      rest := by
    rw [← List.drop_drop, List.drop_left' (List.length_replicate)]
    rfl
  rw [closing?, counted, min_eq_left (by omega), if_pos (by omega), dropped]
  rfl

/-! ## Texts in three double marks -/

theorem longBasicText_of_printable {char : Char} (printable : isPrintable char = true)
    (noMark : char ≠ '"') (noEscape : char ≠ '\\') (noReturn : char ≠ '\r') (rest : List Char) :
    longBasicText false (char :: rest) = before char (longBasicText false rest) := by
  rw [longBasicText] <;> simp_all

/-- A character that is written between three double marks is read back. -/
theorem longBasicText_escapedChar {char : Char} (noMark : char ≠ '"') (rest : List Char) :
    longBasicText false (escapedChar char ++ rest) = before char (longBasicText false rest) := by
  unfold escapedChar
  split
  case h_7 noEscape _ _ noBreak _ noReturn =>
    split
    case isTrue control =>
      show (scalar? _).bind _ = _
      rw [scalar?_of_isControl control]
      rfl
    case isFalse plain =>
      have printable := isPrintable_of_not_isControl (Bool.eq_false_iff.mpr plain) noBreak
      exact longBasicText_of_printable printable noMark noEscape noReturn rest
  all_goals rfl

/-- Marks that are written first stand together with those before them, and there are two at
most, unless nothing else is written. -/
theorem marks_writeLongBasic {run : Nat} (few : run ≤ 2) (chars rest : List Char) :
    (∃ count, count + run ≤ 2 ∧ chars = List.replicate count '"') ∨
      marks '"' (writeLongBasic run chars ++ rest) + run ≤ 2 := by
  induction chars generalizing run with
  | nil => exact .inl ⟨0, by omega, rfl⟩
  | cons char chars ih =>
    by_cases mark : char = '"'
    · subst mark
      by_cases more : run < 2
      · rw [writeLongBasic, if_pos rfl, if_pos more, List.cons_append, marks_cons_self]
        rcases @ih (run + 1) (by omega) with ⟨count, short, rfl⟩ | short
        · exact .inl ⟨count + 1, by omega, rfl⟩
        · exact .inr (by omega)
      · rw [writeLongBasic, if_pos rfl, if_neg more, List.cons_append,
          marks_cons_of_ne (by decide)]
        exact .inr (by omega)
    · right
      have begins : marks '"' (writeLongBasic run (char :: chars) ++ rest) = 0 := by
        rw [writeLongBasic, if_neg mark]
        split
        · exact marks_cons_of_ne (by decide) _
        · obtain ⟨first, more, same, rfl | ⟨rfl, -⟩⟩ := escapedChar_cons char
          · rw [same]
            exact marks_cons_of_ne (by decide) _
          · rw [same]
            exact marks_cons_of_ne mark _
      omega

theorem writeLongBasic_replicate {run count : Nat} (few : count + run ≤ 2) :
    writeLongBasic run (List.replicate count '"') = List.replicate count '"' := by
  induction count generalizing run with
  | zero => rfl
  | succ count ih =>
    rw [List.replicate_succ, writeLongBasic, if_pos rfl, if_pos (by omega), ih (by omega)]

/-- A mark that does not begin the end of a text belongs to it. -/
theorem longBasicText_mark {rest : List Char} (short : marks '"' ('"' :: rest) ≤ 2) :
    longBasicText false ('"' :: rest) = before '"' (longBasicText false rest) := by
  rw [longBasicText, if_neg (by simp), if_pos rfl, closing?_of_short short] <;> simp

theorem longBasicText_marks {count : Nat} (few : count ≤ 2) {rest : List Char}
    (clear : rest.head? ≠ some '"') :
    longBasicText false (List.replicate count '"' ++ '"' :: '"' :: '"' :: rest) =
      some (List.replicate count '"', rest) := by
  have closes := closing?_marks few clear
  cases count with
  | zero =>
    rw [List.replicate_zero, List.nil_append] at closes ⊢
    rw [longBasicText, if_neg (by simp), if_pos rfl, closes] <;> simp
  | succ count =>
    rw [List.replicate_succ, List.cons_append] at closes ⊢
    rw [longBasicText, if_neg (by simp), if_pos rfl, closes] <;> simp

theorem longBasicText_writeLongBasic {run : Nat} (few : run ≤ 2) (chars : List Char)
    {rest : List Char} (clear : rest.head? ≠ some '"') :
    longBasicText false (writeLongBasic run chars ++ '"' :: '"' :: '"' :: rest) =
      some (chars, rest) := by
  induction chars generalizing run with
  | nil => exact longBasicText_marks (Nat.zero_le 2) clear
  | cons char chars ih =>
    rcases marks_writeLongBasic few (char :: chars) ('"' :: '"' :: '"' :: rest) with
      ⟨count, few, same⟩ | short
    · rw [same, writeLongBasic_replicate few]
      exact longBasicText_marks (by omega) clear
    · by_cases mark : char = '"'
      · subst mark
        by_cases more : run < 2
        · rw [writeLongBasic, if_pos rfl, if_pos more, List.cons_append] at short ⊢
          rw [longBasicText_mark (by omega), ih (by omega)]
          rfl
        · rw [writeLongBasic, if_pos rfl, if_neg more]
          exact congrArg (before '"') (ih (Nat.zero_le 2))
      · rw [writeLongBasic, if_neg mark]
        split
        case isTrue isBreak =>
          subst isBreak
          exact congrArg (before '\n') (ih (Nat.zero_le 2))
        case isFalse noBreak =>
          rw [List.append_assoc, longBasicText_escapedChar mark, ih (Nat.zero_le 2)]
          rfl

/-! ## Texts in three single marks -/

/-- The longest run of a character, with a run in progress and one that was the longest so far. -/
def tally (mark : Char) (run most : Nat) (chars : List Char) : Nat :=
  (chars.foldl (fun (run : Nat × Nat) other =>
    if other = mark then (run.1 + 1, max run.2 (run.1 + 1)) else (0, run.2)) (run, most)).2

theorem tally_cons_self (mark : Char) (run most : Nat) (chars : List Char) :
    tally mark run most (mark :: chars) = tally mark (run + 1) (max most (run + 1)) chars := by
  simp [tally]

theorem tally_cons_of_ne {mark char : Char} (other : char ≠ mark) (run most : Nat)
    (chars : List Char) : tally mark run most (char :: chars) = tally mark 0 most chars := by
  simp [tally, other]

theorem le_tally (mark : Char) (run most : Nat) (chars : List Char) :
    most ≤ tally mark run most chars := by
  induction chars generalizing run most with
  | nil => exact Nat.le_refl most
  | cons char chars ih =>
    by_cases same : char = mark
    · subst same
      rw [tally_cons_self]
      exact (Nat.le_max_left _ _).trans (ih _ _)
    · rw [tally_cons_of_ne same]
      exact ih _ _

theorem tally_mono {mark : Char} {run run' most most' : Nat} (runs : run ≤ run')
    (mosts : most ≤ most') (chars : List Char) :
    tally mark run most chars ≤ tally mark run' most' chars := by
  induction chars generalizing run run' most most' with
  | nil => exact mosts
  | cons char chars ih =>
    by_cases same : char = mark
    · subst same
      rw [tally_cons_self, tally_cons_self]
      exact ih (by omega) (by omega)
    · rw [tally_cons_of_ne same, tally_cons_of_ne same]
      exact ih (Nat.le_refl 0) mosts

theorem marks_le_tally {mark : Char} {run most : Nat} (chars : List Char) (least : run ≤ most) :
    marks mark chars + run ≤ tally mark run most chars := by
  induction chars generalizing run most with
  | nil => exact (Nat.zero_add run).symm ▸ least
  | cons char chars ih =>
    by_cases same : char = mark
    · subst same
      have more := @ih (run + 1) (max most (run + 1)) (by omega)
      rw [marks_cons_self, tally_cons_self]
      omega
    · have most := le_tally mark run most (char :: chars)
      rw [marks_cons_of_ne same]
      omega

/-- A run at the front is no longer than the longest. -/
theorem marks_le_longestRun (mark : Char) (chars : List Char) :
    marks mark chars ≤ longestRun mark chars :=
  marks_le_tally chars (Nat.le_refl 0)

theorem longestRun_le_cons (mark char : Char) (chars : List Char) :
    longestRun mark chars ≤ longestRun mark (char :: chars) := by
  show tally mark 0 0 chars ≤ tally mark 0 0 (char :: chars)
  by_cases same : char = mark
  · subst same
    rw [tally_cons_self]
    exact tally_mono (Nat.zero_le _) (Nat.zero_le _) chars
  · rw [tally_cons_of_ne same]

/-- Marks in front of two texts are those in front of the first, unless there is nothing else. -/
theorem marks_append (mark : Char) (chars rest : List Char) :
    chars = List.replicate (marks mark chars) mark ∨
      marks mark (chars ++ rest) = marks mark chars := by
  induction chars with
  | nil => exact .inl rfl
  | cons char chars ih =>
    by_cases same : char = mark
    · subst same
      rw [List.cons_append, marks_cons_self, marks_cons_self]
      rcases ih with ih | ih
      · exact .inl (congrArg (char :: ·) ih)
      · exact .inr (congrArg (· + 1) ih)
    · rw [List.cons_append, marks_cons_of_ne same, marks_cons_of_ne same]
      exact .inr rfl

theorem longLiteralText_of_printable {char : Char} (noMark : char ≠ '\'')
    (plain : isControl char = false) (rest : List Char) :
    longLiteralText (char :: rest) = before char (longLiteralText rest) := by
  have fits : isPrintable char = true ∨ char = '\n' := by
    by_cases isBreak : char = '\n'
    · exact .inr isBreak
    · exact .inl (isPrintable_of_not_isControl plain isBreak)
  rw [longLiteralText, if_neg noMark, if_pos fits]
  rintro rest rfl rfl
  cases plain

/-- A mark that does not begin the end of a text belongs to it. -/
theorem longLiteralText_mark {rest : List Char} (short : marks '\'' ('\'' :: rest) ≤ 2) :
    longLiteralText ('\'' :: rest) = before '\'' (longLiteralText rest) := by
  rw [longLiteralText, if_pos rfl, closing?_of_short short]
  nofun

theorem longLiteralText_marks {count : Nat} (few : count ≤ 2) {rest : List Char}
    (clear : rest.head? ≠ some '\'') :
    longLiteralText (List.replicate count '\'' ++ '\'' :: '\'' :: '\'' :: rest) =
      some (List.replicate count '\'', rest) := by
  have closes := closing?_marks few clear
  cases count with
  | zero =>
    rw [List.replicate_zero, List.nil_append] at closes ⊢
    rw [longLiteralText, if_pos rfl, closes]
    nofun
  | succ count =>
    rw [List.replicate_succ, List.cons_append] at closes ⊢
    rw [longLiteralText, if_pos rfl, closes]
    nofun

theorem longLiteralText_append {chars : List Char} (plain : chars.any isControl = false)
    (short : longestRun '\'' chars ≤ 2) {rest : List Char} (clear : rest.head? ≠ some '\'') :
    longLiteralText (chars ++ '\'' :: '\'' :: '\'' :: rest) = some (chars, rest) := by
  induction chars with
  | nil => exact longLiteralText_marks (Nat.zero_le 2) clear
  | cons char chars ih =>
    rw [List.any_cons, Bool.or_eq_false_iff] at plain
    have later := ih plain.2 ((longestRun_le_cons _ _ _).trans short)
    have front := (marks_le_longestRun '\'' (char :: chars)).trans short
    rcases marks_append '\'' (char :: chars) ('\'' :: '\'' :: '\'' :: rest) with same | same
    · rw [same]
      exact longLiteralText_marks front clear
    · rw [← same, List.cons_append] at front
      rw [List.cons_append]
      by_cases mark : char = '\''
      · subst mark
        rw [longLiteralText_mark front, later]
        rfl
      · rw [longLiteralText_of_printable mark plain.1, later]
        rfl

/-! ## Texts of any form -/

/-- A line break is put right behind three marks if there is any in the text, and it is all that is
left out. -/
theorem skipFirstBreak_firstBreak {chars body : List Char} (noReturn : body.head? ≠ some '\r')
    (isBreak : body.head? = some '\n' → '\n' ∈ chars) :
    skipFirstBreak ((if '\n' ∈ chars then ['\n'] else []) ++ body) = body := by
  split
  case isTrue => rfl
  case isFalse oneLine =>
    rw [List.nil_append]
    unfold skipFirstBreak lineBreak?
    split
    · exact absurd (isBreak rfl) oneLine
    · exact absurd rfl noReturn
    · rfl

theorem head?_writeLongBasic (chars rest : List Char) :
    (writeLongBasic 0 chars ++ '"' :: rest).head? ≠ some '\r' ∧
      ((writeLongBasic 0 chars ++ '"' :: rest).head? = some '\n' → '\n' ∈ chars) := by
  cases chars with
  | nil => simp [writeLongBasic]
  | cons char chars =>
    rw [writeLongBasic]
    split
    case isTrue => simp
    case isFalse =>
      split
      case isTrue isBreak => simp [isBreak]
      case isFalse =>
        obtain ⟨first, more, same, rfl | ⟨rfl, plain, noBreak⟩⟩ := escapedChar_cons char
        · simp [same]
        · have noReturn : first ≠ '\r' := by
            rintro rfl
            cases plain
          simp [same, noReturn, noBreak]

/-- What a text is like that is written between single marks. -/
theorem of_literal {chars : List Char} (form : TextForm.of chars = .literal) :
    chars.any isControl = false ∧ '\n' ∉ chars ∧ '\'' ∉ chars ∧ chars ≠ [] := by
  have noEmpty : chars ≠ [] := by
    rintro rfl
    cases form
  simp only [TextForm.of] at form
  repeat' split at form
  all_goals cases form
  rename_i fits
  exact ⟨Bool.eq_false_iff.mpr fits.1, fits.2.1, fits.2.2, noEmpty⟩

/-- What a text is like that is written between three single marks. -/
theorem of_longLiteral {chars : List Char} (form : TextForm.of chars = .longLiteral) :
    chars.any isControl = false ∧ longestRun '\'' chars ≤ 2 := by
  simp only [TextForm.of] at form
  repeat' split at form
  all_goals cases form
  rename_i fits
  exact ⟨Bool.eq_false_iff.mpr fits.1, fits.2⟩

/-- A double mark opens a text on one line, unless two more follow. -/
theorem readText_double {body : List Char} (one : ∀ rest, body ≠ '"' :: '"' :: rest) :
    readText ('"' :: body) = readText.finish (basicText body) := by
  rw [readText]
  exact one

/-- A single mark opens a text on one line, unless two more follow. -/
theorem readText_single {body : List Char} (one : ∀ rest, body ≠ '\'' :: '\'' :: rest) :
    readText ('\'' :: body) = readText.finish (literalText body) := by
  rw [readText]
  exact one

theorem writeBasic_one (chars : List Char) {rest : List Char} (noMark : rest.head? ≠ some '"')
    (rest' : List Char) : writeBasic chars ++ '"' :: rest ≠ '"' :: '"' :: rest' := by
  cases chars with
  | nil =>
    rintro same
    cases same
    exact noMark rfl
  | cons char chars =>
    rw [writeBasic, List.flatMap_cons]
    split
    case isTrue => nofun
    case isFalse other =>
      obtain ⟨first, more, same, rfl | ⟨rfl, -⟩⟩ := escapedChar_cons char
      · rw [same]
        nofun
      · rw [same]
        exact fun same => other (List.cons.inj same).1

theorem literal_one {chars : List Char} (noMark : '\'' ∉ chars) (noEmpty : chars ≠ [])
    (rest rest' : List Char) : chars ++ '\'' :: rest ≠ '\'' :: '\'' :: rest' := by
  cases chars with
  | nil => exact absurd rfl noEmpty
  | cons char chars =>
    intro same
    exact noMark ((List.cons.inj same).1 ▸ List.mem_cons_self)

theorem head?_literal {chars : List Char} (plain : chars.any isControl = false)
    (rest : List Char) :
    (chars ++ '\'' :: rest).head? ≠ some '\r' ∧
      ((chars ++ '\'' :: rest).head? = some '\n' → '\n' ∈ chars) := by
  cases chars with
  | nil => simp
  | cons char chars =>
    rw [List.any_cons, Bool.or_eq_false_iff] at plain
    have noReturn : char ≠ '\r' := by
      rintro rfl
      cases plain.1
    simp +contextual [noReturn]

/-- **A written text is read back**, whatever stands in it. -/
theorem readText_writeText (text : String) (rest : List Char) (noMark : rest.head? ≠ some '"')
    (noSingle : rest.head? ≠ some '\'') :
    readText ((writeText text).toList ++ rest) = some (text, rest) := by
  have finishes : readText.finish (some (text.toList, rest)) = some (text, rest) := by
    simp [readText.finish]
  rw [writeText, String.toList_ofList]
  cases form : TextForm.of text.toList with
  | basic =>
    have reads := basicText_writeBasic text.toList rest
    simp only [List.append_assoc, List.cons_append, List.nil_append]
    rw [readText_double (writeBasic_one _ noMark), reads, finishes]
  | literal =>
    obtain ⟨plain, oneLine, noMark, noEmpty⟩ := of_literal form
    have reads := literalText_append plain oneLine noMark rest
    simp only [List.append_assoc, List.cons_append, List.nil_append]
    rw [readText_single (literal_one noMark noEmpty _), reads, finishes]
  | longBasic =>
    have reads := longBasicText_writeLongBasic (Nat.zero_le 2) text.toList noMark
    obtain ⟨noReturn, isBreak⟩ := head?_writeLongBasic text.toList ('"' :: '"' :: rest)
    have skips := skipFirstBreak_firstBreak noReturn isBreak
    simp only [List.append_assoc, List.cons_append, List.nil_append]
    show readText.finish (longBasicText false (skipFirstBreak _)) = _
    rw [skips, reads, finishes]
  | longLiteral =>
    obtain ⟨plain, short⟩ := of_longLiteral form
    have reads := longLiteralText_append plain short noSingle
    obtain ⟨noReturn, isBreak⟩ := head?_literal plain ('\'' :: '\'' :: rest)
    have skips := skipFirstBreak_firstBreak noReturn isBreak
    simp only [List.append_assoc, List.cons_append, List.nil_append]
    show readText.finish (longLiteralText (skipFirstBreak _)) = _
    rw [skips, reads, finishes]

end Toml

end ScreenPilot
