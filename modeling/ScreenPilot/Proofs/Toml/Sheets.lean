import Mathlib.Data.List.Nodup
import ScreenPilot.Proofs.Toml.Lines

/-!
# Sheets

A sheet is a document of lines in which every header and every key has one part, whatever the
values are. It can be read exactly if nothing is given twice (`Sheet.parse?_iff`): no key in one
section, and no name for a section that is a key or a section already. What is written for
sections is a sheet, so it is read back (`parse?_writeSections`).

While a sheet is read, the draft holds the pairs above the first header and one table for each
header so far (`Entries.ofSheet`); a statement adds to the end of this or does not fit at all
(`add_table_iff`, `add_pair_iff`).
-/

set_option autoImplicit false

namespace ScreenPilot

namespace Toml

/-- Pairs of a key and a value. -/
abbrev Pairs : Type := List (String × Toml)

/-- A line that gives one key a value, or nothing. -/
structure Row where
  text : String
  pair : Option (String × Toml)
  isLine : IsLine text (pair.map fun (key, value) => .pair [key] value)

/-- A header with the lines below it. -/
structure Part where
  name : String
  header : String
  isHeader : IsLine header (some (.table [name]))
  rows : List Row

/-- A document: lines above all headers, and headers with lines. -/
structure Sheet where
  top : List Row
  parts : List Part

def Row.line (row : Row) : Line := ⟨row.text, _, row.isLine⟩

def Part.lines (part : Part) : List Line :=
  ⟨part.header, _, part.isHeader⟩ :: part.rows.map Row.line

/-- The pairs of lines. -/
def pairs (rows : List Row) : Pairs := rows.filterMap Row.pair

/-- The name of a section with its pairs. -/
def Part.content (part : Part) : String × Pairs := (part.name, pairs part.rows)

namespace Sheet

def lines (sheet : Sheet) : List Line :=
  sheet.top.map Row.line ++ sheet.parts.flatMap Part.lines

def text (sheet : Sheet) : String := String.ofList (Line.chars sheet.lines)

/-- A document of a sheet: its text, also behind a byte order mark, and without the line break at
its end. -/
def IsDocument (sheet : Sheet) (document : String) : Prop := Line.IsDocument sheet.lines document

/-- The text of a sheet is a document of it. -/
theorem isDocument_text (sheet : Sheet) : sheet.IsDocument sheet.text :=
  ⟨_, .whole sheet.lines, .inl String.toList_ofList⟩

/-- What the document stands for. -/
def table (sheet : Sheet) : Toml :=
  .table (pairs sheet.top ++
    (sheet.parts.map Part.content).map fun (name, pairs) => (name, .table pairs))

/-- Nothing is given twice. -/
structure IsProper (sheet : Sheet) : Prop where
  names : ((pairs sheet.top).map Prod.fst ++ sheet.parts.map Part.name).Nodup
  keys : ∀ part ∈ sheet.parts, ((pairs part.rows).map Prod.fst).Nodup

end Sheet

/-! ## Entries of a draft -/

/-- Nothing is found under the keys that are not there. -/
theorem lookup_eq_none_iff {α : Type} {entries : List (String × α)} {key : String} :
    entries.lookup key = none ↔ key ∉ entries.map Prod.fst := by
  rw [List.lookup_eq_none_iff]
  simp only [bne_iff_ne, List.mem_map, not_exists, not_and]
  exact forall₂_congr fun entry _ => ne_comm

namespace Entries

/-- Pairs as entries. -/
def ofPairs (pairs : Pairs) : Entries := pairs.map fun (key, value) => (key, .value value)

/-- Sections as entries. -/
def ofSections (sections : List (String × Pairs)) : Entries :=
  sections.map fun (name, pairs) => (name, .table .header (ofPairs pairs))

/-- The entries for pairs above all headers, and for sections. -/
def ofSheet (top : Pairs) (sections : List (String × Pairs)) : Entries :=
  ofPairs top ++ ofSections sections

theorem keys_ofPairs (pairs : Pairs) : (ofPairs pairs).map Prod.fst = pairs.map Prod.fst := by
  simp [ofPairs]

theorem keys_ofSheet (top : Pairs) (sections : List (String × Pairs)) :
    (ofSheet top sections).map Prod.fst = top.map Prod.fst ++ sections.map Prod.fst := by
  simp only [ofSheet, ofPairs, ofSections, List.map_append, List.map_map]
  rfl

theorem ofSheet_concat (top : Pairs) (sections : List (String × Pairs)) (name : String)
    (pairs : Pairs) :
    ofSheet top (sections ++ [(name, pairs)]) =
      ofSheet top sections ++ [(name, .table .header (ofPairs pairs))] := by
  simp [ofSheet, ofSections]

/-- No table of a sheet is made by the header of another one. -/
theorem ne_implied_of_lookup {top : Pairs} {sections : List (String × Pairs)} {key : String}
    {entry : Entry} (found : (ofSheet top sections).lookup key = some entry) (inside : Entries) :
    entry ≠ .table .implied inside := by
  rintro rfl
  obtain ⟨before, after, same, -⟩ := List.lookup_eq_some_iff.mp found
  have member : (key, Entry.table .implied inside) ∈ ofSheet top sections := by simp [same]
  simp [ofSheet, ofPairs, ofSections] at member

/-- A new key is put at the end. -/
theorem put_of_notMem {entries : Entries} {key : String} (fresh : key ∉ entries.map Prod.fst)
    (entry : Entry) : put key entry entries = entries ++ [(key, entry)] := by
  induction entries with
  | nil => rfl
  | cons first entries ih =>
    rw [List.map_cons, List.mem_cons, not_or] at fresh
    rw [put, if_neg (Ne.symm fresh.1), ih fresh.2]
    rfl

/-- What stands at the end can be replaced. -/
theorem put_last {entries : Entries} {key : String} (fresh : key ∉ entries.map Prod.fst)
    (old entry : Entry) : put key entry (entries ++ [(key, old)]) = entries ++ [(key, entry)] := by
  induction entries with
  | nil => exact if_pos rfl
  | cons first entries ih =>
    rw [List.map_cons, List.mem_cons, not_or] at fresh
    rw [List.cons_append, put, if_neg (Ne.symm fresh.1), ih fresh.2]
    rfl

theorem lookup_last {entries : Entries} {key : String} (fresh : key ∉ entries.map Prod.fst)
    (entry : Entry) : (entries ++ [(key, entry)]).lookup key = some entry := by
  rw [List.lookup_append, lookup_eq_none_iff.mpr fresh]
  exact List.lookup_cons_self

/-- A value is put at the end, if its key is new. -/
theorem setDotted_ofPairs_iff {pairs : Pairs} {key : String} {value : Toml} {entries : Entries} :
    setDotted [] key value (ofPairs pairs) = some entries ↔
      key ∉ pairs.map Prod.fst ∧ entries = ofPairs (pairs ++ [(key, value)]) := by
  rw [← keys_ofPairs, setDotted, change]
  by_cases fresh : key ∈ (ofPairs pairs).map Prod.fst
  · rw [if_neg fun fits => lookup_eq_none_iff.mp (Option.isNone_iff_eq_none.mp fits.2) fresh]
    exact ⟨nofun, fun given => absurd fresh given.1⟩
  · have isNew : ((ofPairs pairs).lookup key).isNone = true :=
      Option.isNone_iff_eq_none.mpr (lookup_eq_none_iff.mpr fresh)
    rw [if_pos ⟨by simp, isNew⟩, put_of_notMem fresh, Option.some.injEq, eq_comm, ofPairs, ofPairs,
      List.map_append]
    exact ⟨fun same => ⟨fresh, same⟩, And.right⟩

end Entries

/-! ## Drafts -/

open Entries

section Drafts

variable {top : Pairs} {sections : List (String × Pairs)} {header : List String} {next : Draft}
  {name key : String} {value : Toml}

/-- A header opens a section, if its name is new. -/
theorem add_table_iff :
    Draft.add ⟨ofSheet top sections, header⟩ (.table [name]) = some next ↔
      name ∉ top.map Prod.fst ++ sections.map Prod.fst ∧
        next = ⟨ofSheet top (sections ++ [(name, [])]), [name]⟩ := by
  rw [← keys_ofSheet]
  show (openTable [] name (ofSheet top sections)).bind _ = some next ↔ _
  rw [openTable, change]
  cases found : (ofSheet top sections).lookup name with
  | none =>
    have fresh := lookup_eq_none_iff.mp found
    simp only [put_of_notMem fresh, ofSheet_concat, Option.bind_some, Option.some.injEq, fresh,
      not_false_eq_true, true_and]
    exact eq_comm
  | some entry =>
    have known : name ∈ (ofSheet top sections).map Prod.fst := by
      by_contra fresh
      exact nomatch found.symm.trans (lookup_eq_none_iff.mpr fresh)
    split
    case h_1 same => cases same
    case h_2 inside same => exact absurd (Option.some.inj same) (ne_implied_of_lookup found inside)
    case h_3 => exact ⟨nofun, fun given => absurd known given.1⟩

/-- A pair above all headers is put at the end, if its key is new. -/
theorem add_pair_top_iff :
    Draft.add ⟨ofSheet top [], []⟩ (.pair [key] value) = some next ↔
      key ∉ top.map Prod.fst ∧ next = ⟨ofSheet (top ++ [(key, value)]) [], []⟩ := by
  have whole (pairs : Pairs) : ofSheet pairs [] = ofPairs pairs := List.append_nil _
  rw [whole, whole]
  show (setDotted [] key value (ofPairs top)).bind (fun entries => some ⟨entries, []⟩) =
    some next ↔ _
  rw [Option.bind_eq_some_iff]
  simp only [setDotted_ofPairs_iff, Option.some.injEq]
  constructor
  · rintro ⟨_, ⟨fresh, rfl⟩, rfl⟩
    exact ⟨fresh, rfl⟩
  · rintro ⟨fresh, rfl⟩
    exact ⟨_, ⟨fresh, rfl⟩, rfl⟩

/-- A pair is put at the end of the last section, if its key is new. -/
theorem add_pair_iff {before : Pairs} (fresh : name ∉ top.map Prod.fst ++ sections.map Prod.fst) :
    Draft.add ⟨ofSheet top (sections ++ [(name, before)]), [name]⟩ (.pair [key] value) =
        some next ↔
      key ∉ before.map Prod.fst ∧
        next = ⟨ofSheet top (sections ++ [(name, before ++ [(key, value)])]), [name]⟩ := by
  rw [← keys_ofSheet] at fresh
  simp only [ofSheet_concat]
  have goes : Entries.set [name] [] key value
      (ofSheet top sections ++ [(name, .table .header (ofPairs before))]) =
        (setDotted [] key value (ofPairs before)).bind fun inside =>
          some (ofSheet top sections ++ [(name, .table .header inside)]) := by
    rw [Entries.set, change, lookup_last fresh]
    simp only [put_last fresh]
    rfl
  show ((Entries.set [name] [] key value _).bind (fun entries => some ⟨entries, [name]⟩)) =
    some next ↔ _
  rw [goes, Option.bind_assoc, Option.bind_eq_some_iff]
  simp only [setDotted_ofPairs_iff, Option.bind_some, Option.some.injEq]
  constructor
  · rintro ⟨_, ⟨isNew, rfl⟩, rfl⟩
    exact ⟨isNew, rfl⟩
  · rintro ⟨isNew, rfl⟩
    exact ⟨_, ⟨isNew, rfl⟩, rfl⟩

end Drafts

theorem nodup_concat_iff {names : List String} {name : String} :
    (names ++ [name]).Nodup ↔ name ∉ names ∧ names.Nodup := by
  rw [List.nodup_middle, List.append_nil, List.nodup_cons]

/-- The statement of a pair. -/
def ofPair (pair : String × Toml) : Statement := .pair [pair.1] pair.2

/-- **Pairs are read one after the other**, as long as each key is new. -/
theorem foldlM_pairs_iff {drafts : Pairs → Draft}
    (step : ∀ before key value next, (drafts before).add (.pair [key] value) = some next ↔
      key ∉ before.map Prod.fst ∧ next = drafts (before ++ [(key, value)]))
    {before more : Pairs} (once : (before.map Prod.fst).Nodup) {next : Draft} :
    (more.map ofPair).foldlM Draft.add (drafts before) = some next ↔
      ((before ++ more).map Prod.fst).Nodup ∧ next = drafts (before ++ more) := by
  induction more generalizing before with
  | nil =>
    rw [List.append_nil, List.map_nil, List.foldlM_nil]
    exact ⟨fun same => ⟨once, (Option.some.inj same).symm⟩, fun given => given.2 ▸ rfl⟩
  | cons pair more ih =>
    obtain ⟨key, value⟩ := pair
    have shift : before ++ (key, value) :: more = (before ++ [(key, value)]) ++ more := by simp
    rw [List.map_cons, List.foldlM_cons, shift]
    refine Option.bind_eq_some_iff.trans ?_
    constructor
    · rintro ⟨middle, added, rest⟩
      obtain ⟨fresh, rfl⟩ := (step _ _ _ _).mp added
      have once' : ((before ++ [(key, value)]).map Prod.fst).Nodup := by
        rw [List.map_append]
        exact nodup_concat_iff.mpr ⟨fresh, once⟩
      exact (ih once').mp rest
    · rintro ⟨all, rfl⟩
      have once' : ((before ++ [(key, value)]).map Prod.fst).Nodup :=
        all.sublist ((List.sublist_append_left _ _).map _)
      have fresh : key ∉ before.map Prod.fst := by
        rw [List.map_append] at once'
        exact (nodup_concat_iff.mp once').1
      exact ⟨_, (step _ _ _ _).mpr ⟨fresh, rfl⟩, (ih once').mpr ⟨all, rfl⟩⟩

/-- The statements of a section. -/
def ofContent (content : String × Pairs) : List Statement :=
  .table [content.1] :: content.2.map ofPair

/-- A section is read, if its name is new and it gives no key twice. -/
theorem foldlM_content_iff {top : Pairs} {sections : List (String × Pairs)} {header : List String}
    {content : String × Pairs} {next : Draft} :
    (ofContent content).foldlM Draft.add ⟨ofSheet top sections, header⟩ = some next ↔
      content.1 ∉ top.map Prod.fst ++ sections.map Prod.fst ∧ (content.2.map Prod.fst).Nodup ∧
        next = ⟨ofSheet top (sections ++ [content]), [content.1]⟩ := by
  obtain ⟨name, pairs⟩ := content
  rw [ofContent, List.foldlM_cons]
  refine Option.bind_eq_some_iff.trans ?_
  have none : (([] : Pairs).map Prod.fst).Nodup := List.nodup_nil
  simp only [add_table_iff]
  constructor
  · rintro ⟨_, ⟨fresh, rfl⟩, rest⟩
    exact ⟨fresh, (foldlM_pairs_iff (fun _ _ _ _ => add_pair_iff fresh) none).mp rest⟩
  · rintro ⟨fresh, read⟩
    exact ⟨_, ⟨fresh, rfl⟩, (foldlM_pairs_iff (fun _ _ _ _ => add_pair_iff fresh) none).mpr read⟩

/-- **Sections are read one after the other**, as long as each name is new. -/
theorem foldlM_contents_iff {top : Pairs} {before more : List (String × Pairs)}
    {header : List String} {entries : Entries}
    (once : (top.map Prod.fst ++ before.map Prod.fst).Nodup) :
    ((more.flatMap ofContent).foldlM Draft.add ⟨ofSheet top before, header⟩).map Draft.entries =
        some entries ↔
      (top.map Prod.fst ++ (before ++ more).map Prod.fst).Nodup ∧
        (∀ content ∈ more, (content.2.map Prod.fst).Nodup) ∧
        entries = ofSheet top (before ++ more) := by
  induction more generalizing before header with
  | nil =>
    rw [List.append_nil]
    constructor
    · rintro ⟨⟩
      exact ⟨once, nofun, rfl⟩
    · rintro ⟨-, -, rfl⟩
      rfl
  | cons content more ih =>
    have shift : before ++ content :: more = (before ++ [content]) ++ more := by simp
    have grown : top.map Prod.fst ++ (before ++ [content]).map Prod.fst =
        (top.map Prod.fst ++ before.map Prod.fst) ++ [content.1] := by simp
    rw [List.flatMap_cons, List.foldlM_append, shift, Option.map_eq_some_iff]
    simp only [Option.bind_eq_bind, Option.bind_eq_some_iff, foldlM_content_iff]
    constructor
    · rintro ⟨last, ⟨_, ⟨fresh, distinct, rfl⟩, rest⟩, rfl⟩
      have once' := nodup_concat_iff.mpr ⟨fresh, once⟩
      rw [← grown] at once'
      obtain ⟨all, keys, same⟩ := (ih once').mp (Option.map_eq_some_iff.mpr ⟨last, rest, rfl⟩)
      exact ⟨all, List.forall_mem_cons.mpr ⟨distinct, keys⟩, same⟩
    · rintro ⟨all, keys, rfl⟩
      obtain ⟨distinct, keys⟩ := List.forall_mem_cons.mp keys
      have once' : (top.map Prod.fst ++ (before ++ [content]).map Prod.fst).Nodup :=
        all.sublist ((List.Sublist.refl _).append ((List.sublist_append_left _ _).map _))
      obtain ⟨last, rest, same⟩ := Option.map_eq_some_iff.mp ((ih once').mpr ⟨all, keys, rfl⟩)
      rw [grown] at once'
      exact ⟨last, ⟨_, ⟨(nodup_concat_iff.mp once').1, distinct, rfl⟩, rest⟩, same⟩

namespace Sheet

variable {sheet : Sheet}

theorem statements_rows (rows : List Row) :
    Line.statements (rows.map Row.line) = (pairs rows).map ofPair := by
  induction rows with
  | nil => rfl
  | cons row rows ih =>
    obtain ⟨text, pair, isLine⟩ := row
    cases pair with
    | none => exact ih
    | some pair => exact congrArg (ofPair pair :: ·) ih

theorem statements_lines (sheet : Sheet) :
    Line.statements sheet.lines =
      (pairs sheet.top).map ofPair ++ (sheet.parts.map Part.content).flatMap ofContent := by
  have parts : Line.statements (sheet.parts.flatMap Part.lines) =
      (sheet.parts.map Part.content).flatMap ofContent := by
    rw [Line.statements, List.filterMap_flatMap, List.flatMap_map]
    refine congrArg (List.flatMap · sheet.parts) (funext fun part => ?_)
    exact congrArg (Statement.table [part.name] :: ·) (statements_rows part.rows)
  rw [lines, Line.statements, List.filterMap_append]
  exact congrArg₂ (· ++ ·) (statements_rows sheet.top) parts

theorem entriesToToml_append (before after : Entries) :
    entriesToToml (before ++ after) = entriesToToml before ++ entriesToToml after := by
  induction before with
  | nil => rfl
  | cons entry before ih => exact congrArg (_ :: ·) ih

theorem entriesToToml_ofPairs (pairs : Pairs) : entriesToToml (ofPairs pairs) = pairs := by
  induction pairs with
  | nil => rfl
  | cons pair pairs ih => exact congrArg (pair :: ·) ih

theorem entriesToToml_ofSheet (top : Pairs) (sections : List (String × Pairs)) :
    entriesToToml (ofSheet top sections) =
      top ++ sections.map fun (name, pairs) => (name, .table pairs) := by
  rw [ofSheet, entriesToToml_append, entriesToToml_ofPairs]
  congr 1
  induction sections with
  | nil => rfl
  | cons content sections ih =>
    rw [List.map_cons, ← ih]
    show (content.1, Toml.table (entriesToToml (ofPairs content.2))) ::
      entriesToToml (ofSections sections) = _
    rw [entriesToToml_ofPairs]

/-- **A document of a sheet can be read exactly if nothing is given twice.** -/
theorem parse?_iff {document : String} (isDocument : sheet.IsDocument document) {found : Toml} :
    parse? document = some found ↔ sheet.IsProper ∧ found = sheet.table := by
  have none : (([] : Pairs).map Prod.fst).Nodup := List.nodup_nil
  have sole {names : List String} (once : names.Nodup) :
      (names ++ ([] : List (String × Pairs)).map Prod.fst).Nodup := by
    simpa using once
  have tops (next : Draft) : ((pairs sheet.top).map ofPair).foldlM Draft.add ⟨[], []⟩ = some next ↔
      ((pairs sheet.top).map Prod.fst).Nodup ∧ next = ⟨ofSheet (pairs sheet.top) [], []⟩ :=
    foldlM_pairs_iff (fun _ _ _ _ => add_pair_top_iff) none
  have names : (sheet.parts.map Part.content).map Prod.fst = sheet.parts.map Part.name := by
    rw [List.map_map]
    rfl
  have keys : (∀ content ∈ sheet.parts.map Part.content, (content.2.map Prod.fst).Nodup) ↔
      ∀ part ∈ sheet.parts, ((pairs part.rows).map Prod.fst).Nodup := List.forall_mem_map
  rw [Line.parse?_eq isDocument, statements_lines, List.foldlM_append, Option.map_eq_some_iff]
  simp only [Option.bind_eq_bind, Option.bind_eq_some_iff, tops]
  constructor
  · rintro ⟨last, ⟨_, ⟨once, rfl⟩, rest⟩, rfl⟩
    obtain ⟨all, distinct, same⟩ := (foldlM_contents_iff (sole once)).mp
      (Option.map_eq_some_iff.mpr ⟨last, rest, rfl⟩)
    rw [List.nil_append, names] at all
    rw [same, List.nil_append, entriesToToml_ofSheet]
    exact ⟨⟨all, keys.mp distinct⟩, rfl⟩
  · rintro ⟨⟨all, distinct⟩, rfl⟩
    have once := all.sublist (List.sublist_append_left _ _)
    rw [← names] at all
    obtain ⟨last, rest, same⟩ := Option.map_eq_some_iff.mp
      ((foldlM_contents_iff (sole once)).mpr ⟨all, keys.mpr distinct, rfl⟩)
    refine ⟨last, ⟨_, ⟨once, rfl⟩, rest⟩, ?_⟩
    rw [same, List.nil_append, entriesToToml_ofSheet]
    rfl

end Sheet

/-! ## Written sections -/

/-- Pairs as they are read. -/
def scalars (pairs : List (String × Scalar)) : Pairs := pairs.map fun (key, value) =>
  (key, value.toToml)

/-- Written pairs are lines. -/
theorem exists_rows {written : List (String × Scalar)} (bare : ∀ pair ∈ written, IsBare pair.1) :
    ∃ rows : List Row, pairs rows = scalars written ∧
      Line.chars (rows.map Row.line) =
        (String.join (written.map fun (key, value) => writePair key value)).toList := by
  induction written with
  | nil => exact ⟨[], rfl, rfl⟩
  | cons pair written ih =>
    obtain ⟨key, value⟩ := pair
    obtain ⟨isBare, bare⟩ := List.forall_mem_cons.mp bare
    obtain ⟨rows, same, text⟩ := ih bare
    let row : Row := ⟨writePair key value, some (key, value.toToml), isLine_pair isBare value⟩
    refine ⟨row :: rows, congrArg ((key, value.toToml) :: ·) same, ?_⟩
    rw [String.toList_join] at text ⊢
    exact congrArg ((writePair key value).toList ++ ·) text

/-- A written section is a part, also with lines behind it that give nothing. -/
theorem exists_part {written : Section} (bare : IsBare written.1)
    (bares : ∀ pair ∈ written.2, IsBare pair.1) {behind : List Row} (nothing : pairs behind = []) :
    ∃ part : Part, part.content = (written.1, scalars written.2) ∧
      Line.chars part.lines =
        (writeSection written).toList ++ Line.chars (behind.map Row.line) := by
  obtain ⟨name, written⟩ := written
  obtain ⟨rows, same, text⟩ := exists_rows bares
  refine ⟨⟨name, _, isLine_header bare, rows ++ behind⟩, ?_, ?_⟩
  · have whole : pairs (rows ++ behind) = scalars written := by
      rw [pairs, List.filterMap_append]
      show pairs rows ++ pairs behind = _
      rw [same, nothing, List.append_nil]
    exact congrArg (name, ·) whole
  · rw [writeSection, String.toList_append, ← text, List.append_assoc]
    show _ ++ Line.chars ((rows ++ behind).map Row.line) = _
    rw [List.map_append, Line.chars, List.flatMap_append]
    rfl

theorem writeSections_cons_cons (first second : Section) (more : List Section) :
    (writeSections (first :: second :: more)).toList =
      (writeSection first).toList ++ '\n' :: (writeSections (second :: more)).toList := by
  simp [writeSections, String.toList_intercalate]

/-- Written sections are a sheet. -/
theorem exists_parts {written : List Section}
    (bare : ∀ one ∈ written, IsBare one.1 ∧ ∀ pair ∈ one.2, IsBare pair.1) :
    ∃ parts : List Part, parts.map Part.content = written.map (fun one => (one.1, scalars one.2)) ∧
      Line.chars (parts.flatMap Part.lines) = (writeSections written).toList := by
  have flat (part : Part) (parts : List Part) : Line.chars ((part :: parts).flatMap Part.lines) =
      Line.chars part.lines ++ Line.chars (parts.flatMap Part.lines) := by
    rw [List.flatMap_cons, Line.chars, List.flatMap_append]
    rfl
  induction written with
  | nil => exact ⟨[], rfl, rfl⟩
  | cons first written ih =>
    obtain ⟨⟨isBare, bares⟩, bare⟩ := List.forall_mem_cons.mp bare
    cases written with
    | nil =>
      obtain ⟨part, content, text⟩ := @exists_part first isBare bares [] rfl
      refine ⟨[part], congrArg ([·]) content, ?_⟩
      rw [flat, text]
      simp [Line.chars, writeSections]
    | cons second written =>
      -- the empty line between two sections belongs to the first one
      have nothing : pairs [⟨"\n", none, isLine_blank⟩] = [] := rfl
      have blank : Line.chars ([⟨"\n", none, isLine_blank⟩].map Row.line) = ['\n'] := by decide
      obtain ⟨parts, same, text⟩ := ih bare
      obtain ⟨part, content, isText⟩ := exists_part isBare bares nothing
      refine ⟨part :: parts, ?_, ?_⟩
      · rw [List.map_cons, List.map_cons, content, same]
      · rw [flat, isText, text, blank, writeSections_cons_cons, List.append_assoc]
        rfl

/-- **Written sections are read back**, if no name needs quotation marks and nothing is given
twice. -/
theorem parse?_writeSections {written : List Section}
    (bare : ∀ one ∈ written, IsBare one.1 ∧ ∀ pair ∈ one.2, IsBare pair.1)
    (names : (written.map Prod.fst).Nodup)
    (keys : ∀ one ∈ written, (one.2.map Prod.fst).Nodup) :
    parse? (writeSections written) =
      some (.table (written.map fun one => (one.1, .table (scalars one.2)))) := by
  obtain ⟨parts, same, text⟩ := exists_parts bare
  have isText : (Sheet.mk [] parts).text = writeSections written := by
    rw [Sheet.text, ← String.ofList_toList (s := writeSections written), ← text]
    rfl
  have named : parts.map Part.name = written.map Prod.fst := by
    have fsts := congrArg (List.map Prod.fst) same
    rw [List.map_map, List.map_map] at fsts
    exact fsts
  have keyed : ∀ content ∈ parts.map Part.content, (content.2.map Prod.fst).Nodup := by
    rw [same]
    refine List.forall_mem_map.mpr fun one member => ?_
    show ((scalars one.2).map Prod.fst).Nodup
    rw [scalars, List.map_map]
    exact keys one member
  rw [← isText, Sheet.parse?_iff (Sheet.isDocument_text _)]
  refine ⟨⟨?_, fun part member => keyed part.content (List.mem_map_of_mem member)⟩, ?_⟩
  · show ([] ++ parts.map Part.name).Nodup
    rw [List.nil_append, named]
    exact names
  · rw [Sheet.table, same, List.map_map]
    rfl

end Toml

end ScreenPilot
