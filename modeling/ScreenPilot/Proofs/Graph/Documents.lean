import Mathlib.Data.List.Forall2
import ScreenPilot.Graph.Load
import ScreenPilot.Proofs.Activity.Rewordings

/-!
# What files and directories contribute to a graph

While the files stay what they are (`FileView`), a path contributes the graph of one file, or
those of the documents of a directory, in the order of their names (`FileView.Contributes`); or
it fails, for a reason that lies in the file, in the directory or in the first of its documents
that fails (`FileView.Fails`). Loading a path comes to one or the other (`FileView.finds_load`),
in whatever order the names of a directory are given: only one order of them is sorted
(`Documents.unique`), so a path contributes one graph at most (`Contributes.unique`).
-/

set_option autoImplicit false

namespace ScreenPilot

open Activity

/-- An item fails with an error, and all before it are good. -/
inductive FirstFails {ι ε : Type} (good : ι → Prop) (bad : ι → ε → Prop) (error : ε) :
    List ι → Prop where
  | here {item : ι} {items : List ι} (fails : bad item error) :
      FirstFails good bad error (item :: items)
  | later {item : ι} {items : List ι} (passes : good item)
      (fails : FirstFails good bad error items) : FirstFails good bad error (item :: items)

/-- The items before the first that fails are good, and those after it do not matter. -/
theorem firstFails_iff {ι ε : Type} {good : ι → Prop} {bad : ι → ε → Prop} {error : ε}
    {items : List ι} :
    FirstFails good bad error items ↔
      ∃ before item after, items = before ++ item :: after ∧ (∀ earlier ∈ before, good earlier) ∧
        bad item error := by
  constructor
  · intro fails
    induction fails with
    | @here item items fails => exact ⟨[], item, items, rfl, nofun, fails⟩
    | @later first items passes _ ih =>
      obtain ⟨before, item, after, rfl, good, fails⟩ := ih
      exact ⟨first :: before, item, after, rfl, List.forall_mem_cons.mpr ⟨passes, good⟩, fails⟩
  · rintro ⟨before, item, after, rfl, good, fails⟩
    induction before with
    | nil => exact .here fails
    | cons first before ih =>
      obtain ⟨passes, good⟩ := List.forall_mem_cons.mp good
      exact .later passes (ih good)

namespace Graph

/-- The graph overlaid with those that items define, in the order of the items. -/
def Overlaid {ι : Type} (defines : ι → Graph → Prop) (graph : Graph) (items : List ι)
    (result : Graph) : Prop :=
  ∃ graphs, List.Forall₂ defines items graphs ∧ result = graphs.foldl merged graph

theorem Overlaid.cons {ι : Type} {defines : ι → Graph → Prop} {graph patch result : Graph}
    {item : ι} {items : List ι} (first : defines item patch)
    (rest : Overlaid defines (graph.merged patch) items result) :
    Overlaid defines graph (item :: items) result := by
  obtain ⟨graphs, each, rfl⟩ := rest
  exact ⟨patch :: graphs, .cons first each, rfl⟩

/-- Each of the items defines a graph. -/
theorem Overlaid.exists_of_mem {ι : Type} {defines : ι → Graph → Prop} {graph result : Graph}
    {items : List ι} (overlaid : Overlaid defines graph items result) {item : ι}
    (member : item ∈ items) : ∃ patch, defines item patch := by
  obtain ⟨graphs, each, -⟩ := overlaid
  induction each with
  | nil => exact nomatch member
  | cons first _ ih =>
    rcases List.mem_cons.mp member with rfl | member
    · exact ⟨_, first⟩
    · exact ih member

/-! ## Documents -/

/-- The entry is a remark, or the node that it defines can be read. -/
def Readable (defaults : NodeDefaults) (entry : String × Json) : Prop :=
  isRemark entry.1 = true ∨ ∃ node, Node.ofJson entry.1 entry.2 defaults = .ok node

/-- The node that the entry defines cannot be read. -/
def Unreadable (defaults : NodeDefaults) (entry : String × Json) (error : EngineError) : Prop :=
  isRemark entry.1 = false ∧ Node.ofJson entry.1 entry.2 defaults = .error error

/-- Entries fail as the first of them that cannot be read. -/
theorem foldlM_eq_error_iff {defaults : NodeDefaults} {entries : List (String × Json)}
    {graph : Graph} {error : EngineError} :
    entries.foldlM (addEntry defaults) graph = .error error ↔
      FirstFails (Readable defaults) (Unreadable defaults) error entries := by
  induction entries generalizing graph with
  | nil => exact ⟨nofun, nofun⟩
  | cons entry entries ih =>
    rw [List.foldlM_cons]
    by_cases remark : isRemark entry.1 = true
    · rw [addEntry, if_pos remark]
      refine ih.trans ⟨.later (.inl remark), fun fails => ?_⟩
      cases fails with
      | here fails => exact nomatch remark.symm.trans fails.1
      | later _ fails => exact fails
    · rw [addEntry, if_neg remark]
      cases read : Node.ofJson entry.1 entry.2 defaults with
      | ok node =>
        refine ih.trans ⟨.later (.inr ⟨node, read⟩), fun fails => ?_⟩
        cases fails with
        | here fails => exact nomatch read.symm.trans fails.2
        | later _ fails => exact fails
      | error cause =>
        constructor
        · rintro ⟨⟩
          exact .here ⟨Bool.eq_false_iff.mpr remark, read⟩
        · rintro (⟨_, fails⟩ | ⟨passes | ⟨node, passes⟩, _⟩)
          · rw [read] at fails
            cases fails
            rfl
          · exact absurd passes remark
          · exact nomatch read.symm.trans passes

/-- Entries that are read are readable, each of them. -/
theorem readable_of_foldlM {defaults : NodeDefaults} {entries : List (String × Json)}
    {start graph : Graph} (folded : entries.foldlM (addEntry defaults) start = .ok graph) :
    ∀ entry ∈ entries, Readable defaults entry := by
  induction entries generalizing start with
  | nil => nofun
  | cons entry entries ih =>
    rw [List.foldlM_cons] at folded
    unfold addEntry at folded
    split at folded
    · rename_i remark
      exact List.forall_mem_cons.mpr ⟨.inl remark, ih folded⟩
    · cases read : Node.ofJson entry.1 entry.2 defaults with
      | error cause =>
        rw [read] at folded
        exact nomatch folded
      | ok node =>
        rw [read] at folded
        exact List.forall_mem_cons.mpr ⟨.inr ⟨node, read⟩, ih folded⟩

/-- What is wrong with the text of a document. -/
inductive Malformed (defaults : NodeDefaults) (text : String) : EngineError → Prop where
  | notJson (parsed : Json.parse? text = none) : Malformed defaults text .json
  | notObject {value : Json} (parsed : Json.parse? text = some value)
      (other : ∀ entries, value ≠ .object entries) :
      Malformed defaults text (.pipeline .notObject)
  /-- An entry is a node that cannot be read. -/
  | badNode {entries : List (String × Json)} {error : EngineError}
      (parsed : Json.parse? text = some (.object entries))
      (fails : FirstFails
        (fun entry : String × Json => isRemark entry.1 = true ∨
          ∃ node, Node.ofJson entry.1 entry.2 defaults = .ok node)
        (fun entry error => isRemark entry.1 = false ∧
          Node.ofJson entry.1 entry.2 defaults = .error error) error entries) :
      Malformed defaults text error

/-- A text that defines no graph is malformed. -/
theorem ofText_eq_error_iff {defaults : NodeDefaults} {text : String} {error : EngineError} :
    ofText defaults text = .error error ↔ Malformed defaults text error := by
  constructor
  · intro failed
    unfold ofText at failed
    split at failed
    · rename_i parsed
      cases failed
      exact .notJson parsed
    · rename_i value parsed
      cases value with
      | object entries => exact .badNode parsed (foldlM_eq_error_iff.mp failed)
      | _ =>
        cases failed
        exact .notObject parsed nofun
  · intro malformed
    unfold ofText
    cases malformed with
    | notJson parsed => rw [parsed]
    | @notObject value parsed other =>
      rw [parsed]
      cases value with
      | object entries => exact (other entries rfl).elim
      | _ => rfl
    | badNode parsed fails =>
      rw [parsed]
      exact foldlM_eq_error_iff.mpr fails

/-- Of the names in a directory, those of documents, in order. -/
structure Documents (listed names : List String) : Prop where
  perm : names.Perm (listed.filter (Path.hasEnding "json"))
  sorted : names.Pairwise (· ≤ ·)

theorem Documents.unique {listed listed' names names' : List String}
    (documents : Documents listed names) (same : listed'.Perm listed)
    (documents' : Documents listed' names') : names' = names := by
  have perm : names'.Perm names :=
    (documents'.perm.trans (same.filter _)).trans documents.perm.symm
  exact perm.eq_of_pairwise (fun _ _ _ _ => String.le_antisymm) documents'.sorted documents.sorted

/-- The names that are loaded from a directory are those of its documents, in order. -/
theorem documents_documentNames {listed listed' : List String} (same : listed'.Perm listed) :
    Documents listed (documentNames listed') where
  perm := (List.mergeSort_perm _ _).trans (same.filter _)
  sorted := by
    have transitive : ∀ left middle right : String, decide (left ≤ middle) = true →
        decide (middle ≤ right) = true → decide (left ≤ right) = true := by
      simpa only [decide_eq_true_eq] using fun _ _ _ => String.le_trans
    have total : ∀ left right : String,
        (decide (left ≤ right) || decide (right ≤ left)) = true := by
      simpa only [Bool.or_eq_true, decide_eq_true_eq] using String.le_total
    exact (List.pairwise_mergeSort transitive total _).imp fun ordered => of_decide_eq_true ordered

end Graph

/-! ## Files that stay what they are -/

/-- What questions about files that stay what they are come to. -/
structure FileView where
  isDirectory : String → Bool
  /-- The names in a directory, in some order. -/
  names : String → Except FileFault (List String)
  text : String → Except FileFault String

namespace FileView

variable (view : FileView) (defaults : NodeDefaults)

/-- The text of a file defines a graph. -/
def Defines (path : String) (graph : Graph) : Prop :=
  ∃ text, view.text path = .ok text ∧ Graph.ofText defaults text = .ok graph

/-- The text of a file cannot be read, or it is malformed. -/
inductive FileFails (path : String) : EngineError → Prop where
  | unreadable {fault : FileFault} (read : view.text path = .error fault) :
      FileFails path (.within (aboutPath "Failed to read pipeline" path) (.file fault))
  | malformed {text : String} {error : EngineError} (read : view.text path = .ok text)
      (wrong : Graph.Malformed defaults text error) :
      FileFails path (.within (aboutPath "Failed to parse pipeline" path) error)

/-- A path contributes the graph of a file, or the graphs of the documents of a directory, in
the order of their names. -/
inductive Contributes (path : String) (graph : Graph) : Prop where
  | file (isFile : view.isDirectory path = false) (defines : view.Defines defaults path graph)
  | directory {listed names : List String} (isDirectory : view.isDirectory path = true)
      (lists : view.names path = .ok listed) (documents : Graph.Documents listed names)
      (overlaid : Graph.empty.Overlaid (fun name => view.Defines defaults (Path.join path name))
        names graph)

/-- A path cannot be loaded: a file fails, the names of a directory cannot be read, or one of
its documents fails. -/
inductive Fails (path : String) : EngineError → Prop where
  | file {error : EngineError} (isFile : view.isDirectory path = false)
      (fails : view.FileFails defaults path error) : Fails path error
  | unlisted {fault : FileFault} (isDirectory : view.isDirectory path = true)
      (lists : view.names path = .error fault) :
      Fails path (.within (aboutPath "Failed to read pipeline directory" path) (.file fault))
  | document {listed names : List String} {error : EngineError}
      (isDirectory : view.isDirectory path = true) (lists : view.names path = .ok listed)
      (documents : Graph.Documents listed names)
      (fails : FirstFails (fun name => ∃ graph, view.Defines defaults (Path.join path name) graph)
        (fun name => view.FileFails defaults (Path.join path name)) error names) :
      Fails path error

variable {view defaults}

theorem Defines.unique {path : String} {graph graph' : Graph}
    (defines : view.Defines defaults path graph) (defines' : view.Defines defaults path graph') :
    graph' = graph := by
  obtain ⟨text, read, ofText⟩ := defines
  obtain ⟨text', read', ofText'⟩ := defines'
  obtain rfl : text = text' := Except.ok.inj (read.symm.trans read')
  exact (Except.ok.inj (ofText.symm.trans ofText')).symm

end FileView

theorem Graph.Overlaid.unique {ι : Type} {defines : ι → Graph → Prop}
    (once : ∀ item graph graph', defines item graph → defines item graph' → graph' = graph)
    {graph result result' : Graph} {items : List ι} (overlaid : Overlaid defines graph items result)
    (overlaid' : Overlaid defines graph items result') : result' = result := by
  obtain ⟨graphs, each, rfl⟩ := overlaid
  obtain ⟨graphs', each', rfl⟩ := overlaid'
  suffices same : graphs' = graphs by rw [same]
  induction each generalizing graphs' with
  | nil =>
    cases each'
    rfl
  | cons first _ ih =>
    cases each' with
    | cons first' rest' => rw [once _ _ _ first first', ih _ rest']

/-- **A path contributes one graph at most.** -/
theorem FileView.Contributes.unique {view : FileView} {defaults : NodeDefaults} {path : String}
    {graph graph' : Graph} (contributes : view.Contributes defaults path graph)
    (contributes' : view.Contributes defaults path graph') : graph' = graph := by
  cases contributes with
  | file isFile defines =>
    cases contributes' with
    | file _ defines' => exact defines.unique defines'
    | directory isDirectory => exact nomatch isFile.symm.trans isDirectory
  | directory isDirectory lists documents overlaid =>
    cases contributes' with
    | file isFile => exact nomatch isFile.symm.trans isDirectory
    | directory _ lists' documents' overlaid' =>
      cases lists.symm.trans lists'
      rw [documents.unique (.refl _) documents'] at overlaid'
      exact overlaid.unique (fun _ _ _ first again => first.unique again) overlaid'

/-- A file does not fail that defines a graph. -/
theorem FileView.Defines.not_fails {view : FileView} {defaults : NodeDefaults} {path : String}
    {graph : Graph} (defines : view.Defines defaults path graph) {error : EngineError} :
    ¬ view.FileFails defaults path error := by
  obtain ⟨text, read, defined⟩ := defines
  rintro (unread | ⟨read', malformed⟩)
  · exact nomatch read.symm.trans unread
  · cases read.symm.trans read'
    exact nomatch defined.symm.trans (Graph.ofText_eq_error_iff.mpr malformed)

/-- **A path does not fail that contributes a graph.** -/
theorem FileView.Contributes.not_fails {view : FileView} {defaults : NodeDefaults} {path : String}
    {graph : Graph} (contributes : view.Contributes defaults path graph) {error : EngineError} :
    ¬ view.Fails defaults path error := by
  intro fails
  cases contributes with
  | file isFile defines =>
    cases fails with
    | file _ fails => exact defines.not_fails fails
    | unlisted isDirectory => exact nomatch isFile.symm.trans isDirectory
    | document isDirectory => exact nomatch isFile.symm.trans isDirectory
  | directory isDirectory lists documents overlaid =>
    cases fails with
    | file isFile => exact nomatch isFile.symm.trans isDirectory
    | unlisted _ unlisted => exact nomatch lists.symm.trans unlisted
    | document _ lists' documents' fails =>
      cases lists.symm.trans lists'
      obtain rfl := documents.unique (.refl _) documents'
      obtain ⟨before, name, after, rfl, -, fails⟩ := firstFails_iff.mp fails
      have member : name ∈ before ++ name :: after := by simp
      obtain ⟨defined, defines⟩ := overlaid.exists_of_mem member
      exact defines.not_fails fails

/-! ## Loading -/

/-- Questions about files are answered by what is in view, the names of a directory in any
order. -/
structure Surroundings.Shows {σ ω : Type} (surroundings : Surroundings Files.access σ ω)
    (view : FileView) : Prop where
  isDirectory : ∀ path before,
    (surroundings.answer (.isDirectory path) before).1 = view.isDirectory path
  text : ∀ path before, (surroundings.answer (.text path) before).1 = view.text path
  unlisted : ∀ path fault before, view.names path = .error fault →
    (surroundings.answer (.names path) before).1 = .error fault
  listed : ∀ path names before, view.names path = .ok names →
    ∃ names', names'.Perm names ∧ (surroundings.answer (.names path) before).1 = .ok names'

/-- An activity that finds something out leaves the state as it was. -/
def Surroundings.Finds {interface : Interface} {σ ω α : Type}
    (surroundings : Surroundings interface σ ω) (activity : Activity interface σ α)
    (before : σ × ω) (holds : α → Prop) : Prop :=
  (surroundings.carry activity before).2.1 = before.1 ∧ holds (surroundings.carry activity before).1

namespace Surroundings.Finds

variable {interface : Interface} {σ ω α β : Type} {surroundings : Surroundings interface σ ω}
  {before : σ × ω}

theorem imp {activity : Activity interface σ α} {holds also : α → Prop}
    (finds : surroundings.Finds activity before holds)
    (enough : ∀ value, holds value → also value) :
    surroundings.Finds activity before also :=
  ⟨finds.1, enough _ finds.2⟩

theorem bind {first : Activity interface σ α} {next : α → Activity interface σ β}
    {holds : α → Prop} {also : β → Prop} (finds : surroundings.Finds first before holds)
    (after : ∀ value world, holds value → surroundings.Finds (next value) (before.1, world) also) :
    surroundings.Finds (first >>= next) before also := by
  obtain ⟨same, held⟩ := finds
  have later := after _ (surroundings.carry first before).2.2 held
  rw [← same] at later
  unfold Finds
  rw [carry_bind]
  exact ⟨later.1.trans same, later.2⟩

end Surroundings.Finds

namespace FileView

variable {view : FileView} {defaults : NodeDefaults} {σ ω : Type}
  {surroundings : Surroundings Files.access σ ω}

/-- What loading a file comes to. -/
def FileComes (view : FileView) (defaults : NodeDefaults) (path : String) : Outcome Graph → Prop
  | .ok graph => view.Defines defaults path graph
  | .error error => view.FileFails defaults path error

theorem finds_loadFile (shows : surroundings.Shows view) (path : String) (before : σ × ω) :
    surroundings.Finds (Graph.loadFile defaults path) before (view.FileComes defaults path) := by
  have reads : surroundings.Finds (Files.text path) before (· = view.text path) :=
    ⟨rfl, shows.text path before⟩
  refine reads.bind ?_
  rintro _ world rfl
  cases read : view.text path with
  | error fault => exact ⟨rfl, .unreadable read⟩
  | ok text =>
    refine ⟨rfl, ?_⟩
    show view.FileComes defaults path (inContext _ (Graph.ofText defaults text))
    cases defines : Graph.ofText defaults text with
    | ok graph => exact ⟨text, read, defines⟩
    | error error => exact .malformed read (Graph.ofText_eq_error_iff.mp defines)

/-- Files are overlaid in their order, up to the first that fails. -/
theorem finds_loadFiles (shows : surroundings.Shows view) (directory : String)
    (names : List String) (graph : Graph) (before : σ × ω) :
    surroundings.Finds (Graph.loadFiles defaults graph (names.map (Path.join directory))) before
      fun
      | .ok result =>
        graph.Overlaid (fun name => view.Defines defaults (Path.join directory name)) names result
      | .error error =>
        FirstFails (fun name => ∃ graph, view.Defines defaults (Path.join directory name) graph)
          (fun name => view.FileFails defaults (Path.join directory name)) error names := by
  induction names generalizing graph before with
  | nil => exact ⟨rfl, [], .nil, rfl⟩
  | cons name names ih =>
    refine (finds_loadFile shows (Path.join directory name) before).bind ?_
    rintro (error | patch) world came
    · exact ⟨rfl, .here came⟩
    · refine (ih (graph.merged patch) (before.1, world)).imp ?_
      rintro (error | result) rest
      · exact .later ⟨patch, came⟩ rest
      · exact rest.cons came

/-- What loading a path comes to. -/
def PathComes (view : FileView) (defaults : NodeDefaults) (path : String) : Outcome Graph → Prop
  | .ok graph => view.Contributes defaults path graph
  | .error error => view.Fails defaults path error

/-- **Loading a path comes to what the path contributes, or it fails**, whatever order the names
of a directory are given in. -/
theorem finds_load (shows : surroundings.Shows view) (path : String) (before : σ × ω) :
    surroundings.Finds (Graph.load defaults path) before (view.PathComes defaults path) := by
  have looks : surroundings.Finds (Files.isDirectory path) before (· = view.isDirectory path) :=
    ⟨rfl, shows.isDirectory path before⟩
  refine looks.bind ?_
  rintro _ world rfl
  split
  · rename_i isDirectory
    unfold Graph.loadDirectory
    cases lists : view.names path with
    | error fault =>
      have refused : surroundings.Finds (Files.names path) (before.1, world)
          (· = .error fault) := ⟨rfl, shows.unlisted path fault _ lists⟩
      refine refused.bind ?_
      rintro _ world' rfl
      exact ⟨rfl, .unlisted isDirectory lists⟩
    | ok listed =>
      obtain ⟨listed', same, given⟩ := shows.listed path listed (before.1, world) lists
      have named : surroundings.Finds (Files.names path) (before.1, world)
          (· = .ok listed') := ⟨rfl, given⟩
      refine named.bind ?_
      rintro _ world' rfl
      have documents := Graph.documents_documentNames same
      refine (finds_loadFiles shows path _ .empty (before.1, world')).imp ?_
      rintro (error | graph) came
      · exact .document isDirectory lists documents came
      · exact .directory isDirectory lists documents came
  · rename_i isFile
    replace isFile : view.isDirectory path = false := Bool.eq_false_iff.mpr isFile
    refine (finds_loadFile shows path (before.1, world)).imp ?_
    rintro (error | graph) came
    · exact .file isFile came
    · exact .file isFile came

end FileView

end ScreenPilot
