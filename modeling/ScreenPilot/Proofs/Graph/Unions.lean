import Mathlib.Data.String.Basic
import ScreenPilot.Proofs.Graph.Documents
import ScreenPilot.Proofs.Graph.Names
import ScreenPilot.Proofs.Graph.Overlays
import ScreenPilot.Proofs.Json.Tables

/-!
# Documents laid over documents

A document can be read exactly if each of its entries can (`exists_ofJson_iff`). Otherwise it
fails as the entry with the least key that cannot (`ofJson_eq_error_iff`): keys ascend, and
reading gives up at the first fault. What is read is told entry by entry (`find?_ofJson`), so to
lay one document over another one and to read the union is to read both and to merge
(`ofJson_union`). The same holds of any number of documents, however they are grouped
(`ofJson_overlaid`).
-/

set_option autoImplicit false

namespace ScreenPilot

namespace Graph

variable {defaults : NodeDefaults} {table : Json.Table}

/-! ## What can be read -/

/-- Every entry that is no remark is a node that can be read. -/
def Parses (defaults : NodeDefaults) (table : Json.Table) : Prop :=
  ∀ key value, table[key]? = some value → isRemark key = false →
    ∃ node, Node.ofJson key value defaults = .ok node

/-- **A document fails as the entry with the least key that cannot be read.** -/
theorem ofJson_eq_error_iff {error : EngineError} :
    ofJson defaults (.ofTable table) = .error error ↔
      ∃ key value, table[key]? = some value ∧ isRemark key = false ∧
        Node.ofJson key value defaults = .error error ∧
        ∀ other value', table[other]? = some value' → isRemark other = false → other < key →
          ∃ node, Node.ofJson other value' defaults = .ok node := by
  have ascending := table.ascending
  have first : ofJson defaults (.ofTable table) = .error error ↔
      FirstFails (Readable defaults) (Unreadable defaults) error table.toList := foldlM_eq_error_iff
  rw [first, firstFails_iff]
  constructor
  · rintro ⟨before, ⟨key, value⟩, after, split, readable, plain, fails⟩
    have member : (key, value) ∈ table.toList := by simp [split]
    refine ⟨key, value, Json.Table.mem_toList_iff.mp member, plain, fails, ?_⟩
    intro other value' here plain' less
    have member' := Json.Table.mem_toList_iff.mpr here
    rw [split, List.pairwise_append, List.pairwise_cons] at ascending
    rw [split, List.mem_append, List.mem_cons] at member'
    rcases member' with earlier | same | later
    · exact (readable _ earlier).resolve_left (by simp [plain'])
    · cases same
      exact absurd less (lt_irrefl _)
    · exact absurd less (lt_asymm (ascending.2.1.1 _ later))
  · rintro ⟨key, value, here, plain, fails, least⟩
    obtain ⟨before, after, split⟩ := List.append_of_mem (Json.Table.mem_toList_iff.mpr here)
    refine ⟨before, (key, value), after, split, fun earlier member => ?_, plain, fails⟩
    rw [split, List.pairwise_append] at ascending
    have less : earlier.1 < key := ascending.2.2 earlier member _ List.mem_cons_self
    have isEntry : earlier ∈ table.toList := by simp [split, member]
    cases remark : isRemark earlier.1 with
    | true => exact .inl remark
    | false => exact .inr (least _ _ (Json.Table.mem_toList_iff.mp isEntry) remark less)

/-- **A document can be read exactly if each of its entries can.** -/
theorem exists_ofJson_iff :
    (∃ graph, ofJson defaults (.ofTable table) = .ok graph) ↔ Parses defaults table := by
  constructor
  · rintro ⟨graph, reads⟩ key value here plain
    have readable := readable_of_foldlM reads _ (Json.Table.mem_toList_iff.mpr here)
    exact readable.resolve_left (by simp [plain])
  · intro parses
    cases reads : ofJson defaults (.ofTable table) with
    | ok graph => exact ⟨graph, rfl⟩
    | error error =>
      obtain ⟨key, value, here, plain, fails, -⟩ := ofJson_eq_error_iff.mp reads
      obtain ⟨node, passes⟩ := parses key value here plain
      exact nomatch fails.symm.trans passes

/-! ## What is read -/

/-- The node that an entry defines, if it is no remark and can be read. -/
def defined? (defaults : NodeDefaults) (key : String) (value : Json) : Option Node :=
  if isRemark key then none else (Node.ofJson key value defaults).toOption

/-- An entry adds the node that it defines, and the other nodes are as before. -/
theorem find?_addEntry {graph next : Graph} {name : String} {value : Json}
    (adds : addEntry defaults graph (name, value) = .ok next) (key : String) :
    next.find? key = (if name = key then defined? defaults key value else none).or
      (graph.find? key) := by
  unfold addEntry at adds
  unfold defined?
  split at adds
  · rename_i remark
    cases adds
    split
    · subst_vars
      rw [if_pos remark, Option.none_or]
    · rw [Option.none_or]
  · rename_i plain
    cases read : Node.ofJson name value defaults with
    | error cause =>
      rw [read] at adds
      exact nomatch adds
    | ok node =>
      rw [read] at adds
      cases adds
      rw [find?_insert, Node.name_ofJson read]
      split
      · subst_vars
        rw [if_neg plain, read]
        rfl
      · rw [Option.none_or]

/-- The nodes of entries with different keys are there, and the others are as before. -/
theorem find?_foldlM {entries : List (String × Json)} {start graph : Graph}
    (distinct : (entries.map Prod.fst).Nodup)
    (folded : entries.foldlM (addEntry defaults) start = .ok graph) (key : String) :
    graph.find? key = ((entries.lookup key).bind (defined? defaults key)).or (start.find? key) := by
  induction entries generalizing start with
  | nil =>
    cases folded
    rfl
  | cons entry entries ih =>
    obtain ⟨name, value⟩ := entry
    rw [List.map_cons, List.nodup_cons] at distinct
    rw [List.foldlM_cons] at folded
    obtain ⟨next, adds, folded⟩ := bind_eq_ok_iff.mp folded
    rw [ih distinct.2 folded, find?_addEntry adds]
    by_cases same : name = key
    · subst same
      simp [Json.lookup_eq_none distinct.1]
    · simp [List.lookup_cons, beq_false_of_ne (Ne.symm same), same]

/-- **The graph of a document has the nodes that its entries define.** -/
theorem find?_ofJson {graph : Graph} (reads : ofJson defaults (.ofTable table) = .ok graph)
    (key : String) : graph.find? key = table[key]?.bind (defined? defaults key) := by
  rw [find?_foldlM table.nodup_keys reads, Json.Table.lookup_toList, find?_empty, Option.or_none]

theorem Parses.defined?_isSome (parses : Parses defaults table) {key : String} {value : Json}
    (here : table[key]? = some value) (plain : isRemark key = false) :
    (defined? defaults key value).isSome := by
  obtain ⟨node, read⟩ := parses key value here plain
  simp [defined?, plain, read, Except.toOption]

theorem Parses.union {patch : Json.Table} (parses : Parses defaults table)
    (also : Parses defaults patch) : Parses defaults (table ∪ patch) := by
  intro key value here plain
  rw [Json.Table.getElem?_union, Option.or_eq_some_iff] at here
  rcases here with here | ⟨-, here⟩
  · exact also key value here plain
  · exact parses key value here plain

/-- **To read the union of two documents is to read both and to merge.** -/
theorem ofJson_union {patch : Json.Table} {graph overrides : Graph}
    (reads : ofJson defaults (.ofTable table) = .ok graph)
    (reads' : ofJson defaults (.ofTable patch) = .ok overrides) :
    ofJson defaults (.ofTable (table ∪ patch)) = .ok (graph.merged overrides) := by
  have parses' := exists_ofJson_iff.mp ⟨overrides, reads'⟩
  obtain ⟨result, readsUnion⟩ :=
    exists_ofJson_iff.mpr ((exists_ofJson_iff.mp ⟨graph, reads⟩).union parses')
  rw [readsUnion]
  congr 1
  apply eq_of_find?
  intro key
  rw [find?_ofJson readsUnion, find?_merged, find?_ofJson reads, find?_ofJson reads',
    Json.Table.getElem?_union]
  cases here : patch[key]? with
  | none => simp
  | some value =>
    -- A remark defines nothing in either document; any other entry of the patch defines a node.
    cases remark : isRemark key with
    | true =>
      have nothing : defined? defaults key = fun _ => none := by
        funext value
        simp [defined?, remark]
      simp [nothing]
    | false =>
      obtain ⟨node, isNode⟩ := Option.isSome_iff_exists.mp (parses'.defined?_isSome here remark)
      simp [isNode]

/-! ## Any number of documents -/

theorem ofJson_nothing : ofJson defaults (.ofTable ∅) = .ok empty := by
  have nothing : (∅ : Json.Table).toList = [] := by simp
  simp only [Json.ofTable, ofJson, nothing]
  rfl

/-- **A graph that is overlaid with the graphs of documents, one after another, is merged with
the graph of their union.** -/
theorem ofJson_overlaid {tables : List Json.Table} {base result : Graph}
    (overlaid : base.Overlaid (fun table graph => ofJson defaults (.ofTable table) = .ok graph)
      tables result) :
    ∃ union, ofJson defaults (.ofTable (.overlaid tables)) = .ok union ∧
      result = base.merged union := by
  obtain ⟨graphs, each, rfl⟩ := overlaid
  induction each generalizing base with
  | nil => exact ⟨empty, ofJson_nothing, (merged_empty base).symm⟩
  | @cons table graph _ _ reads _ ih =>
    obtain ⟨union, readsUnion, same⟩ := ih
    refine ⟨graph.merged union, ofJson_union reads readsUnion, ?_⟩
    rw [List.foldl_cons, same, merged_assoc]

/-- The union of documents that can be read can be read. -/
theorem Parses.overlaid {tables : List Json.Table}
    (parses : ∀ table ∈ tables, Parses defaults table) : Parses defaults (.overlaid tables) := by
  induction tables with
  | nil =>
    intro key value here
    simp [Json.Table.overlaid] at here
  | cons table tables ih =>
    obtain ⟨first, rest⟩ := List.forall_mem_cons.mp parses
    exact first.union (ih rest)

end Graph

end ScreenPilot
