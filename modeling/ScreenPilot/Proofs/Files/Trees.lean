import Mathlib.Tactic.SplitIfs
import ScreenPilot.Files.Tree
import ScreenPilot.Proofs.Activity.Surroundings
import ScreenPilot.Proofs.Json.Records

/-!
# Files that are kept

A file system keeps what is written if a file that was written is read as it was written
(`Surroundings.ReadsBack`). A file tree does (`FileTree.readsBack`): the directories that lead to a
file are the same after it is written, so the path leads to it as before.
-/

set_option autoImplicit false

namespace ScreenPilot

/-- A file that was written is read as it was written. -/
def Surroundings.ReadsBack {σ ω : Type} (surroundings : Surroundings Files.access σ ω) : Prop :=
  ∀ (path text : String) (state : σ) (world world' : ω),
    surroundings.answer (Files.Question.write path text) (state, world) =
      ((Except.ok () : Except FileFault Unit), world') →
    (surroundings.answer (Files.Question.text path) (state, world')).1 =
      (Except.ok text : Except FileFault String)

namespace FileTree

variable {tree : FileTree} {place target : List String} {entry : FileEntry}

theorem entry?_put_self (target_ne : target ≠ []) :
    entry? (tree.put target entry) target = some entry := by
  unfold entry?
  rw [if_neg (by simpa using target_ne)]
  exact List.lookup_cons_self

theorem entry?_put_of_ne (differs : place ≠ target) :
    entry? (tree.put target entry) place = tree.entry? place := by
  have kept (entries : List (List String × FileEntry)) :
      (entries.filter fun entry => entry.1 ≠ target).lookup place = entries.lookup place := by
    induction entries with
    | nil => rfl
    | cons first entries ih =>
      obtain ⟨other, held⟩ := first
      by_cases same : other = target
      · subst same
        rw [List.filter_cons_of_neg (by simp), ih, List.lookup_cons, beq_false_of_ne differs]
      · rw [List.filter_cons_of_pos (by simpa using same), List.lookup_cons, List.lookup_cons, ih]
  unfold entry?
  split
  · rfl
  · show ((target, entry) :: tree.entries.filter _).lookup place = _
    rw [List.lookup_cons, beq_false_of_ne differs]
    exact kept tree.entries

/-- Where a piece of a path leads from a directory. -/
def turn (place : List String) (piece : String) : Except FileFault (List String) :=
  if piece = "" ∨ piece = "." then .ok place
  else if piece = ".." then .ok place.dropLast
  else if Path.isName piece then .ok (place ++ [piece])
  else .error .badName

/-- From a directory, one piece is followed after the other. -/
theorem walk_cons (isDirectory : tree.entry? place = some .directory) (piece : String)
    (pieces : List String) :
    tree.walk place (piece :: pieces) = turn place piece >>= (tree.walk · pieces) := by
  simp only [walk, isDirectory, turn]
  repeat' split
  all_goals rfl

/-- Only a directory leads on. -/
theorem isDirectory_of_walk_cons {piece : String} {pieces : List String}
    (leads : tree.walk place (piece :: pieces) = .ok target) :
    tree.entry? place = some .directory := by
  rw [walk] at leads
  split at leads
  case h_1 => exact nomatch leads
  case h_2 => exact nomatch leads
  case h_3 isDirectory => exact isDirectory

/-- A path leads where it led before, when something is put where no directory was. -/
theorem walk_put (noDirectory : tree.entry? target ≠ some .directory) {pieces : List String}
    {start : List String} (leads : tree.walk start pieces = .ok place) :
    (tree.put target entry).walk start pieces = .ok place := by
  induction pieces generalizing start with
  | nil => exact leads
  | cons piece pieces ih =>
    have isDirectory := isDirectory_of_walk_cons leads
    have differs : start ≠ target := by
      rintro rfl
      exact noDirectory isDirectory
    rw [walk_cons isDirectory] at leads
    rw [walk_cons ((entry?_put_of_ne differs).trans isDirectory)]
    obtain ⟨next, turns, leads⟩ := bind_eq_ok_iff.mp leads
    exact bind_eq_ok_iff.mpr ⟨next, turns, ih leads⟩

/-- One more piece leads on from a directory. -/
theorem walk_concat {pieces : List String} {start : List String}
    (leads : tree.walk start pieces = .ok place) (isDirectory : tree.entry? place = some .directory)
    (piece : String) : tree.walk start (pieces ++ [piece]) = turn place piece := by
  induction pieces generalizing start with
  | nil =>
    cases leads
    rw [List.nil_append, walk_cons isDirectory]
    exact bind_pure _
  | cons first pieces ih =>
    have isDirectory' := isDirectory_of_walk_cons leads
    rw [walk_cons isDirectory'] at leads
    obtain ⟨next, turns, leads⟩ := bind_eq_ok_iff.mp leads
    rw [List.cons_append, walk_cons isDirectory', turns]
    exact ih leads

/-- The name of a file leads from its directory to the file. -/
theorem turn_name {name : String} (proper : ¬ (name = "" ∨ name = "." ∨ name = ".."))
    (isName : Path.isName name = true) : turn place name = .ok (place ++ [name]) := by
  simp only [not_or] at proper
  simp [turn, proper, isName]

/-- The path to a file that can be written leads to what is put there. -/
theorem walk_of_filePlace {path : String} (isPlace : tree.filePlace path = .ok target) :
    target ≠ [] ∧ ∃ start pieces, tree.course? path = some (start, pieces) ∧
      ∀ entry, (tree.put target entry).walk start pieces = .ok target := by
  rw [filePlace] at isPlace
  split at isPlace
  case h_1 => exact nomatch isPlace
  case h_2 start pieces isCourse =>
    obtain ⟨place, leads, isPlace⟩ := bind_eq_ok_iff.mp isPlace
    obtain ⟨isDirectory, turns, isTarget, noDirectory⟩ :
        tree.entry? place = some .directory ∧
          turn place (pieces.getLast?.getD "") = .ok target ∧
          target = place ++ [pieces.getLast?.getD ""] ∧
          tree.entry? target ≠ some .directory := by
      dsimp only at isPlace
      split at isPlace
      case h_1 => exact nomatch isPlace
      case h_2 => exact nomatch isPlace
      case h_3 isDirectory =>
        split_ifs at isPlace with proper isName
        split at isPlace
        case h_1 => exact nomatch isPlace
        case h_2 noDirectory =>
          cases isPlace
          exact ⟨isDirectory, turn_name proper isName, rfl, noDirectory⟩
    have differs : place ≠ target := by simp [isTarget]
    refine ⟨by simp [isTarget], start, pieces, isCourse, fun entry => ?_⟩
    rcases List.eq_nil_or_concat pieces with rfl | ⟨before, name, rfl⟩
    · have stays : place = target := Except.ok.inj turns
      exact absurd stays differs
    · rw [List.concat_eq_append] at leads turns ⊢
      rw [List.dropLast_concat] at leads
      rw [List.getLast?_concat] at turns
      rw [walk_concat (walk_put noDirectory leads)
        ((entry?_put_of_ne differs).trans isDirectory)]
      exact turns

/-- **A file that was written is read as it was written.** -/
theorem text_of_write {tree tree' : FileTree} {path text : String}
    (writes : tree.write path text.toUTF8 = .ok tree') : tree'.text path = .ok text := by
  obtain ⟨target, isPlace, writes⟩ := bind_eq_ok_iff.mp writes
  cases writes
  obtain ⟨target_ne, start, pieces, isCourse, leads⟩ := walk_of_filePlace isPlace
  have isCourse' : (tree.put target (.file text.toUTF8)).course? path = some (start, pieces) :=
    isCourse
  have found : (tree.put target (.file text.toUTF8)).find path =
      .ok (target, .file text.toUTF8) := by
    simp only [find, isCourse', leads, entry?_put_self target_ne, bind, Except.bind]
  have isText : String.fromUTF8? text.toUTF8 = some text := dif_pos text.isValidUTF8
  simp only [FileTree.text, found, isText, bind, Except.bind]

/-- An activity that has the files to itself. -/
def surroundings : Surroundings Files.access Unit FileTree where
  meanwhile := id
  answer question before := before.2.answer question

/-- **A file tree keeps what is written.** -/
theorem readsBack : surroundings.ReadsBack := by
  intro path text _ tree tree' wrote
  change tree.after (tree.write path text.toUTF8) = (.ok (), tree') at wrote
  show tree'.text path = .ok text
  cases writes : tree.write path text.toUTF8 with
  | error fault =>
    rw [writes] at wrote
    exact nomatch congrArg Prod.fst wrote
  | ok changed =>
    rw [writes] at wrote
    obtain rfl : changed = tree' := congrArg Prod.snd wrote
    exact text_of_write writes

end FileTree

end ScreenPilot
