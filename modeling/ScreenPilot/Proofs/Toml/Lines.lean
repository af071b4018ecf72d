import ScreenPilot.Proofs.Toml.Values

/-!
# Lines of a document

A line gives a statement or, if it is blank or a comment, nothing, and what follows it is read as
if the line were not there (`IsLine`). So a document that is made of lines is read line by line
(`Line.parse?_eq`), and it stays one when lines are taken out. It may begin with a byte order mark,
and end with a line that lacks its line break (`Line.IsDocument`). Headers and pairs that are
written are lines (`isLine_header`, `isLine_pair`).
-/

set_option autoImplicit false

namespace ScreenPilot

namespace Toml

/-- The text is read as a statement or as nothing, whatever follows. -/
structure IsLine (text : String) (statement : Option Statement) : Prop where
  ne_nil : text.toList ≠ []
  reads : ∀ fuel rest, readStatements (fuel + 1) (text.toList ++ rest) =
    (readStatements fuel rest).map (statement.toList ++ ·)

/-- The text is read as a statement or as nothing, if nothing follows. -/
structure IsLast (text : String) (statement : Option Statement) : Prop where
  ne_nil : text.toList ≠ []
  reads : ∀ fuel, readStatements (fuel + 2) text.toList = some statement.toList

/-- A line of a document. -/
structure Line where
  text : String
  statement : Option Statement
  isLine : IsLine text statement

namespace Line

/-- The text of lines. -/
def chars (lines : List Line) : List Char := lines.flatMap fun line => line.text.toList

/-- The statements of lines. -/
def statements (lines : List Line) : List Statement := lines.filterMap Line.statement

theorem length_le (lines : List Line) : lines.length ≤ (chars lines).length := by
  induction lines with
  | nil => exact Nat.le_refl 0
  | cons line lines ih =>
    have positive := List.length_pos_iff.mpr line.isLine.ne_nil
    rw [chars, List.flatMap_cons, List.length_append, List.length_cons]
    exact Nat.add_comm _ 1 ▸ Nat.add_le_add positive ih

/-- Lines are read one after the other, and then what follows them. -/
theorem readStatements_append (lines : List Line) (fuel : Nat) (rest : List Char) :
    readStatements (lines.length + fuel) (chars lines ++ rest) =
      (readStatements fuel rest).map (statements lines ++ ·) := by
  induction lines with
  | nil =>
    rw [List.length_nil, Nat.zero_add]
    exact Option.map_id'.symm
  | cons line lines ih =>
    rw [chars, List.flatMap_cons, List.append_assoc, List.length_cons, Nat.add_right_comm,
      line.isLine.reads]
    refine (congrArg _ ih).trans ((Option.map_map ..).trans ?_)
    refine congrArg (Option.map · _) (funext fun later => ?_)
    cases given : line.statement with
    | none => simp [statements, given]
    | some statement => simp [statements, given]

/-- The text of lines, where the last one may be another text that nothing has to follow. -/
inductive IsText : List Line → List Char → Prop where
  | whole (lines : List Line) : IsText lines (chars lines)
  | cut (lines : List Line) {line : Line} {last : String} (isLast : IsLast last line.statement) :
      IsText (lines ++ [line]) (chars lines ++ last.toList)

/-- **The text of lines is read line by line.** -/
theorem IsText.readStatements {lines : List Line} {text : List Char} (isText : IsText lines text) :
    readStatements (text.length + 1) text = some (statements lines) := by
  cases isText with
  | whole =>
    obtain ⟨fuel, enough⟩ := Nat.exists_eq_add_of_le (length_le lines)
    have reads := readStatements_append lines (fuel + 1) []
    rw [List.append_nil, ← Nat.add_assoc, ← enough] at reads
    rw [reads]
    exact congrArg some (List.append_nil _)
  | @cut lines line last isLast =>
    obtain ⟨fuel, enough⟩ := Nat.exists_eq_add_of_le (length_le lines)
    obtain ⟨more, rest⟩ := Nat.exists_eq_succ_of_ne_zero
      (Nat.ne_of_gt (List.length_pos_iff.mpr isLast.ne_nil))
    have count : (chars lines ++ last.toList).length + 1 = lines.length + (fuel + more + 2) := by
      rw [List.length_append, enough, rest]
      omega
    rw [count, readStatements_append, isLast.reads]
    cases given : line.statement <;> simp [statements, given]

/-- A text that can be read does not begin with a byte order mark. -/
theorem skipMark_eq {fuel : Nat} {text : List Char} {found : List Statement}
    (reads : Toml.readStatements fuel text = some found) : skipMark text = text := by
  unfold skipMark
  split
  case h_2 => rfl
  case h_1 => cases fuel <;> cases reads

/-- A document of lines: it may begin with a byte order mark. -/
def IsDocument (lines : List Line) (document : String) : Prop :=
  ∃ text, IsText lines text ∧ (document.toList = text ∨ document.toList = '\ufeff' :: text)

/-- **A document of lines holds what its statements make.** -/
theorem parse?_eq {lines : List Line} {document : String} (isDocument : IsDocument lines document) :
    parse? document =
      ((statements lines).foldlM Draft.add ⟨[], []⟩).map fun draft =>
        .table (entriesToToml draft.entries) := by
  obtain ⟨text, isText, marked⟩ := isDocument
  have reads := isText.readStatements
  have skips : skipMark document.toList = text := by
    rcases marked with same | same
    · rw [same, skipMark_eq reads]
    · rw [same]
      rfl
  simp only [parse?, skips, reads, Option.bind_eq_bind, Option.bind_some]
  cases (statements lines).foldlM Draft.add ⟨[], []⟩ <;> rfl

end Line

/-! ## Statements -/

/-- A character that may begin a statement. -/
structure Begins (first : Char) : Prop where
  noBlank : isBlank first = false
  noComment : first ≠ '#'
  noBreak : first ≠ '\n'
  noReturn : first ≠ '\r'

/-- A statement is read where one may begin. -/
theorem Begins.readStatements {first : Char} (begins : Begins first) {more rest : List Char}
    {statement : Statement} (reads : readStatement (first :: more) = some (statement, rest))
    (fuel : Nat) :
    readStatements (fuel + 1) (first :: more) =
      (readStatements fuel rest).map (statement :: ·) := by
  have skips : skipBlanks (first :: more) = first :: more :=
    List.dropWhile_cons_of_neg (by simp [begins.noBlank])
  have goesOn : lineBreak? (first :: more) = none := by
    have noBreak := begins.noBreak
    have noReturn := begins.noReturn
    rw [lineBreak?] <;> simp_all
  rw [Toml.readStatements, skips]
  split
  case h_1 same => cases same
  case h_2 same => exact absurd (List.cons.inj same).1 begins.noComment
  case h_3 =>
    rw [goesOn, reads]
    rfl

variable {text : String} {statement : Statement} {first : Char} {more : List Char}

/-- A text that begins with a statement and ends with its line is a line. -/
theorem IsLine.of_statement (isFirst : text.toList = first :: more) (begins : Begins first)
    (reads : ∀ rest, readStatement (text.toList ++ rest) = some (statement, rest)) :
    IsLine text (some statement) where
  ne_nil := isFirst ▸ List.cons_ne_nil first more
  reads fuel rest := by
    have reads := reads rest
    rw [isFirst, List.cons_append] at reads ⊢
    exact begins.readStatements reads fuel

/-- A text that is a statement may be the last line. -/
theorem IsLast.of_statement (isFirst : text.toList = first :: more) (begins : Begins first)
    (reads : readStatement text.toList = some (statement, [])) : IsLast text (some statement) where
  ne_nil := isFirst ▸ List.cons_ne_nil first more
  reads fuel := by
    rw [isFirst] at reads ⊢
    exact begins.readStatements reads (fuel + 1)

/-- An empty line gives nothing. -/
theorem isLine_blank : IsLine "\n" none where
  ne_nil := by decide
  reads fuel rest := by
    show readStatements fuel rest = (readStatements fuel rest).map ([] ++ ·)
    cases readStatements fuel rest <;> rfl

/-! ## Names -/

/-- A name that needs no quotation marks. -/
structure IsBare (name : String) : Prop where
  ne_nil : name.toList ≠ []
  fits : ∀ char ∈ name.toList, isBareKey char = true

/-- No character of a bare name ends it. -/
theorem ne_of_isBareKey {char mark : Char} (bare : isBareKey char = true)
    (ends : isBareKey mark = false) : char ≠ mark := by
  rintro rfl
  exact nomatch bare.symm.trans ends

theorem isBlank_of_isBareKey {char : Char} (bare : isBareKey char = true) :
    isBlank char = false := by
  have noSpace : char ≠ ' ' := ne_of_isBareKey bare (by decide)
  have noTab : char ≠ '\t' := ne_of_isBareKey bare (by decide)
  simp [isBlank, noSpace, noTab]

namespace IsBare

variable {name : String}

theorem exists_cons (bare : IsBare name) :
    ∃ first more, name.toList = first :: more ∧ isBareKey first = true := by
  obtain ⟨first, more, isFirst⟩ := List.exists_cons_of_ne_nil bare.ne_nil
  exact ⟨first, more, isFirst, bare.fits first (isFirst ▸ List.mem_cons_self)⟩

/-- A name is read up to what cannot belong to it. -/
theorem readKeyPart (bare : IsBare name) {mark : Char} (ends : isBareKey mark = false)
    (rest : List Char) :
    readKeyPart (name.toList ++ mark :: rest) = some (name, mark :: rest) := by
  obtain ⟨first, more, isFirst, isBareFirst⟩ := bare.exists_cons
  have takes : (name.toList ++ mark :: rest).takeWhile isBareKey = name.toList := by
    rw [List.takeWhile_append_of_pos bare.fits, List.takeWhile_cons_of_neg (by simp [ends]),
      List.append_nil]
  have drops : (name.toList ++ mark :: rest).dropWhile isBareKey = mark :: rest := by
    rw [List.dropWhile_append_of_pos bare.fits, List.dropWhile_cons_of_neg (by simp [ends])]
  rw [Toml.readKeyPart, takes, drops]
  · simp only [isFirst]
    rw [← isFirst, String.ofList_toList]
  all_goals
    intro _ same
    rw [isFirst] at same
    exact ne_of_isBareKey isBareFirst (by decide) (List.cons.inj same).1

theorem skipBlanks (bare : IsBare name) (rest : List Char) :
    skipBlanks (name.toList ++ rest) = name.toList ++ rest := by
  obtain ⟨first, more, isFirst, isBareFirst⟩ := bare.exists_cons
  rw [isFirst]
  exact List.dropWhile_cons_of_neg (by simp [isBlank_of_isBareKey isBareFirst])

/-- A key of one part is read up to what ends it, without the blanks before that. -/
theorem readKey (bare : IsBare name) {mark : Char} (ends : isBareKey mark = false)
    {rest after : List Char} {last : Char} (isRest : Toml.skipBlanks (mark :: rest) = last :: after)
    (noPoint : last ≠ '.') :
    readKey (name.toList ++ mark :: rest) = some ([name], last :: after) := by
  rw [Toml.readKey, mostKeyParts, readKeyParts, bare.skipBlanks, bare.readKeyPart ends]
  simp only [Option.bind_eq_bind, Option.bind_some, isRest]
  split
  case h_1 same => exact absurd (List.cons.inj same).1 noPoint
  case h_2 => rfl

end IsBare

/-! ## Written lines -/

/-- **A written header is a line.** -/
theorem isLine_header {name : String} (bare : IsBare name) :
    IsLine ("[" ++ name ++ "]\n") (some (.table [name])) := by
  have isText : ("[" ++ name ++ "]\n").toList = '[' :: (name.toList ++ [']', '\n']) := by
    simp
  refine .of_statement isText ⟨by decide, by decide, by decide, by decide⟩ fun rest => ?_
  have reads : readKey (name.toList ++ ']' :: '\n' :: rest) = some ([name], ']' :: '\n' :: rest) :=
    bare.readKey (by decide) rfl (by decide)
  rw [isText]
  simp only [List.cons_append, List.append_assoc, List.nil_append]
  rw [readStatement, reads]
  · rfl
  · intro rest' same
    obtain ⟨first, more, isFirst, isBareFirst⟩ := bare.exists_cons
    rw [isFirst] at same
    exact ne_of_isBareKey isBareFirst (by decide) (List.cons.inj same).1

/-- What is written for a value does not begin with a blank. -/
theorem skipBlanks_write (value : Scalar) (rest : List Char) :
    skipBlanks (value.write.toList ++ '\n' :: rest) = value.write.toList ++ '\n' :: rest := by
  obtain ⟨first, more, isFirst, noBlank⟩ := exists_write_cons value rest
  rw [isFirst]
  exact List.dropWhile_cons_of_neg (by simp [noBlank])

/-- **A written pair is a line.** -/
theorem isLine_pair {key : String} (bare : IsBare key) (value : Scalar) :
    IsLine (writePair key value) (some (.pair [key] value.toToml)) := by
  obtain ⟨first, more, isFirst, isBareFirst⟩ := bare.exists_cons
  have isText : (writePair key value).toList =
      key.toList ++ ' ' :: '=' :: ' ' :: (value.write.toList ++ ['\n']) := by
    simp [writePair]
  have differs {mark : Char} (ends : isBareKey mark = false) : first ≠ mark :=
    ne_of_isBareKey isBareFirst ends
  have begins : Begins first := ⟨isBlank_of_isBareKey isBareFirst, differs (by decide),
    differs (by decide), differs (by decide)⟩
  refine .of_statement (by rw [isText, isFirst]; rfl) begins fun rest => ?_
  have named : readKey (key.toList ++ ' ' :: '=' :: ' ' ::
      (value.write.toList ++ '\n' :: rest)) =
        some ([key], '=' :: ' ' :: (value.write.toList ++ '\n' :: rest)) :=
    bare.readKey (by decide) rfl (by decide)
  have skips : skipBlanks (' ' :: (value.write.toList ++ '\n' :: rest)) =
      value.write.toList ++ '\n' :: rest := skipBlanks_write value rest
  have paired : readPair (readValue mostNesting) (key.toList ++ ' ' :: '=' :: ' ' ::
      (value.write.toList ++ '\n' :: rest)) = some (([key], value.toToml), '\n' :: rest) := by
    rw [readPair, named]
    show (readValue mostNesting (skipBlanks (' ' :: _))).bind _ = _
    rw [skips, readValue_write]
    rfl
  rw [isText]
  simp only [List.cons_append, List.append_assoc, List.nil_append]
  rw [readStatement, paired]
  · rfl
  all_goals
    intro _ same
    rw [isFirst] at same
    exact differs (by decide) (List.cons.inj same).1

end Toml

end ScreenPilot
