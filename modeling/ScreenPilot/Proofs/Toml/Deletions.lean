import Mathlib.Data.List.Forall2
import ScreenPilot.Proofs.Toml.Sheets
import ScreenPilot.Proofs.Toml.Tables

/-!
# Deletions

Keys may be deleted from a table, and from the tables in it, however deep they stand, and of an
array of tables any table may go as well (`Deletion`). A key with a place in tables before that has
none afterwards is `deleted`.

From a sheet, lines may be taken out, and headers with all their lines (`Sheet.Deletion`). Whatever
is taken out, the rest can still be read, and stands for a table from which keys are deleted
(`Sheet.parse?_deletion`).
-/

set_option autoImplicit false

namespace ScreenPilot

namespace Toml

/-! ## Values -/

mutual

/-- The second value is the first one without some of its keys. -/
inductive Deletion : Toml → Toml → Prop where
  | same (value : Toml) : Deletion value value
  | array {items items' : List Toml} (left : ItemDeletion items items') :
      Deletion (.array items) (.array items')
  | table {entries entries' : List (String × Toml)}
      (keys : (entries'.map Prod.fst).Sublist (entries.map Prod.fst))
      (each : ∀ key value value', entries.lookup key = some value →
        entries'.lookup key = some value' → Deletion value value') :
      Deletion (.table entries) (.table entries')

/-- The second list of items is the first one without some tables, and without some of the keys in
its items. -/
inductive ItemDeletion : List Toml → List Toml → Prop where
  | nil : ItemDeletion [] []
  | cons {item item' : Toml} {items items' : List Toml} (first : Deletion item item')
      (more : ItemDeletion items items') : ItemDeletion (item :: items) (item' :: items')
  | table (entries : List (String × Toml)) {items items' : List Toml}
      (more : ItemDeletion items items') : ItemDeletion (.table entries :: items) items'

end

/-- What stands at the end of a path, if it leads through tables. -/
def at? : List String → Toml → Option Toml
  | [], value => some value
  | key :: path, .table entries => (entries.lookup key).bind (at? path)
  | _ :: _, _ => none

/-- A path leads to something before, and to nothing afterwards. -/
def deleted (before after : Toml) (path : List String) : Bool :=
  (before.at? path).isSome && (after.at? path).isNone

section Values

variable {before after : Toml} {entries entries' : List (String × Toml)} {key : String}
  {value value' : Toml}

theorem at?_table (entries : List (String × Toml)) (key : String) (path : List String) :
    at? (key :: path) (.table entries) = (entries.lookup key).bind (at? path) := rfl

/-- Nothing is deleted when all stays as it is. -/
theorem deleted_self (value : Toml) (path : List String) : deleted value value path = false := by
  rw [deleted]
  cases value.at? path <;> rfl

/-- Nothing stands at the end of a path that leads through an array. -/
theorem deleted_array (items : List Toml) (after : Toml) (path : List String) :
    deleted (.array items) after path = false := by
  cases path <;> rfl

/-- Within a value that is left, that is deleted which is deleted of this value. -/
theorem deleted_cons (found : entries.lookup key = some value)
    (found' : entries'.lookup key = some value') (path : List String) :
    deleted (.table entries) (.table entries') (key :: path) = deleted value value' path := by
  rw [deleted, at?_table, at?_table, found, found']
  rfl

/-- A key that is not left is deleted. -/
theorem deleted_of_lookup_eq_none (found : entries.lookup key = some value)
    (gone : entries'.lookup key = none) :
    deleted (.table entries) (.table entries') [key] = true := by
  rw [deleted, at?_table, at?_table, found, gone]
  rfl

/-- What is found under a key is the one value that the key has. -/
theorem eq_of_lookup (once : (entries.map Prod.fst).Nodup) (found : entries.lookup key = some value)
    (member : (key, value') ∈ entries) : value = value' := by
  obtain ⟨before, after, rfl, -⟩ := List.lookup_eq_some_iff.mp found
  have first : (key, value) ∈ before ++ (key, value) :: after := by simp
  exact congrArg Prod.snd (List.inj_on_of_nodup_map once first member rfl)

theorem mem_of_lookup (found : entries.lookup key = some value) : (key, value) ∈ entries := by
  obtain ⟨before, after, rfl, -⟩ := List.lookup_eq_some_iff.mp found
  simp

/-- Of a table a table is left. -/
theorem Deletion.exists_table (deletion : Deletion (.table entries) after) :
    ∃ entries', after = .table entries' ∧
      (entries'.map Prod.fst).Sublist (entries.map Prod.fst) ∧
      ∀ key value value', entries.lookup key = some value →
        entries'.lookup key = some value' → Deletion value value' := by
  cases deletion with
  | same =>
    refine ⟨entries, rfl, .refl _, fun key value value' found found' => ?_⟩
    obtain rfl := Option.some.inj (found.symm.trans found')
    exact .same value
  | table keys each => exact ⟨_, rfl, keys, each⟩

/-- A value is no table and no array. -/
def IsPlain : Toml → Prop
  | .table _ => False
  | .array _ => False
  | _ => True

/-- Nothing can be deleted from a plain value. -/
theorem Deletion.eq_of_isPlain (deletion : Deletion value value') (plain : value.IsPlain) :
    value' = value := by
  cases deletion with
  | same => rfl
  | array => exact plain.elim
  | table => exact plain.elim

end Values

/-! ## Sheets -/

/-- A header with some of its lines. -/
structure Part.Deletion (part part' : Part) : Prop where
  name : part'.name = part.name
  rows : part'.rows.Sublist part.rows

/-- Some of the lines, and some of the headers with some of their lines. -/
structure Sheet.Deletion (sheet sheet' : Sheet) : Prop where
  top : sheet'.top.Sublist sheet.top
  parts : List.SublistForall₂ (fun part' part => Part.Deletion part part') sheet'.parts sheet.parts

namespace Sheet

variable {sheet sheet' : Sheet}

theorem keys_sublist {rows rows' : List Row} (sublist : rows'.Sublist rows) :
    ((pairs rows').map Prod.fst).Sublist ((pairs rows).map Prod.fst) :=
  (sublist.filterMap Row.pair).map Prod.fst

theorem names_sublist {parts parts' : List Part}
    (deletion : List.SublistForall₂ (fun part' part => Part.Deletion part part') parts' parts) :
    (parts'.map Part.name).Sublist (parts.map Part.name) := by
  induction deletion with
  | nil => exact List.nil_sublist _
  | cons first _ ih =>
    rw [List.map_cons, List.map_cons, first.name]
    exact ih.cons_cons _
  | cons_right _ ih => exact ih.cons _

/-- A header that is left was there. -/
theorem exists_part_of_mem {parts parts' : List Part}
    (deletion : List.SublistForall₂ (fun part' part => Part.Deletion part part') parts' parts)
    {part' : Part} (member : part' ∈ parts') : ∃ part ∈ parts, Part.Deletion part part' := by
  induction deletion with
  | nil => exact nomatch member
  | cons first _ ih =>
    rcases List.mem_cons.mp member with rfl | member
    · exact ⟨_, List.mem_cons_self, first⟩
    · obtain ⟨part, member, left⟩ := ih member
      exact ⟨part, List.mem_cons_of_mem _ member, left⟩
  | cons_right _ ih =>
    obtain ⟨part, member, left⟩ := ih member
    exact ⟨part, List.mem_cons_of_mem _ member, left⟩

theorem Deletion.isProper (deletion : sheet.Deletion sheet') (proper : sheet.IsProper) :
    sheet'.IsProper where
  names := proper.names.sublist ((keys_sublist deletion.top).append (names_sublist deletion.parts))
  keys := by
    intro part' member
    obtain ⟨part, member, left⟩ := exists_part_of_mem deletion.parts member
    exact (proper.keys part member).sublist (keys_sublist left.rows)

/-- The entries of the table that a sheet stands for. -/
def entries (sheet : Sheet) : List (String × Toml) :=
  pairs sheet.top ++ (sheet.parts.map Part.content).map fun (name, pairs) => (name, .table pairs)

theorem keys_entries (sheet : Sheet) :
    sheet.entries.map Prod.fst =
      (pairs sheet.top).map Prod.fst ++ sheet.parts.map Part.name := by
  rw [entries, List.map_append, List.map_map, List.map_map]
  rfl

theorem mem_entries_iff {key : String} {value : Toml} :
    (key, value) ∈ sheet.entries ↔ (key, value) ∈ pairs sheet.top ∨
      ∃ part ∈ sheet.parts, part.name = key ∧ value = .table (pairs part.rows) := by
  simp [entries, Part.content, eq_comm]

/-- From the pairs of lines, those of the lines that are taken out are deleted. -/
theorem deletion_pairs {rows rows' : List Row} (once : ((pairs rows).map Prod.fst).Nodup)
    (sublist : rows'.Sublist rows) :
    Toml.Deletion (.table (pairs rows)) (.table (pairs rows')) := by
  refine .table (keys_sublist sublist) fun key value value' found found' => ?_
  obtain rfl : value = value' :=
    eq_of_lookup once found ((sublist.filterMap Row.pair).subset (mem_of_lookup found'))
  exact .same value

/-- What is taken out of a sheet is deleted from the table it stands for. -/
theorem Deletion.table (deletion : sheet.Deletion sheet') (proper : sheet.IsProper) :
    Toml.Deletion sheet.table sheet'.table := by
  have once : (sheet.entries.map Prod.fst).Nodup := sheet.keys_entries ▸ proper.names
  have keys : (sheet'.entries.map Prod.fst).Sublist (sheet.entries.map Prod.fst) := by
    rw [keys_entries, keys_entries]
    exact (keys_sublist deletion.top).append (names_sublist deletion.parts)
  show Toml.Deletion (.table sheet.entries) (.table sheet'.entries)
  refine .table keys fun key value value' found found' => ?_
  rcases mem_entries_iff.mp (mem_of_lookup found') with above | ⟨part', member, rfl, rfl⟩
  · obtain rfl : value = value' := by
      refine eq_of_lookup once found (mem_entries_iff.mpr (.inl ?_))
      exact (deletion.top.filterMap Row.pair).subset above
    exact .same value
  · obtain ⟨part, member, left⟩ := exists_part_of_mem deletion.parts member
    obtain rfl : value = .table (pairs part.rows) :=
      eq_of_lookup once found (mem_entries_iff.mpr (.inr ⟨part, member, left.name.symm, rfl⟩))
    exact deletion_pairs (proper.keys part member) left.rows

/-- **Whatever is taken out of a sheet, the rest can be read.** -/
theorem parse?_deletion {document document' : String} {table : Toml}
    (isDocument : sheet.IsDocument document) (isDocument' : sheet'.IsDocument document')
    (reads : parse? document = some table) (deletion : sheet.Deletion sheet') :
    parse? document' = some sheet'.table ∧ table = sheet.table ∧
      Toml.Deletion sheet.table sheet'.table := by
  obtain ⟨proper, rfl⟩ := (parse?_iff isDocument).mp reads
  exact ⟨(parse?_iff isDocument').mpr ⟨deletion.isProper proper, rfl⟩, rfl,
    deletion.table proper⟩

end Sheet

end Toml

end ScreenPilot
