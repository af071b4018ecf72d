import ScreenPilot.Proofs.Graph.Closed
import ScreenPilot.Proofs.Json.Records

/-!
# Names that documents define

A node has the name that it is defined under (`Node.name_ofJson`), so the graph of a document has
just the names that the document defines (`Graph.contains_ofJson`), which are its keys but for
remarks (`Graph.Defines`). A graph that was overlaid with the graphs of documents covers them
(`Graph.Covers`).
-/

set_option autoImplicit false

namespace ScreenPilot

/-! ## Nodes -/

/-- **A node has the name that it is defined under.** -/
theorem Node.name_ofJson {name : String} {value : Json} {defaults : NodeDefaults} {node : Node}
    (defines : Node.ofJson name value defaults = .ok node) : node.name = name := by
  have fields : ∀ field ∈ Node.form.fields,
      field.Keeps (fun _ => True) fun node => node.name = name := by
    simp only [Node.form, Node.nullable, Node.nameList, List.forall_mem_cons]
    refine ⟨?_, ?_, ?_, ?_, ?_, ?_, ?_, ?_, ?_, ?_, ?_, ?_, ?_, ?_, ?_, ?_, ?_, nofun⟩
    all_goals
      refine FieldForm.keeps_of fun _ part record _ _ same => ?_
      first
        | exact same
        | cases part <;> exact same
  unfold Node.ofJson at defines
  split at defines
  · rename_i read found
    cases defines
    exact RecordForm.read_keeps fields (Json.within_of_forall (fun _ => trivial) value) found rfl
  · exact nomatch defines

/-! ## Documents -/

namespace Graph

/-- The document defines a node of the name: the name is one of its keys, and no remark. -/
def Defines (document : Json) (name : String) : Prop :=
  isRemark name = false ∧ ∃ entries value, document = .object entries ∧ (name, value) ∈ entries

/-- An entry adds its key, if this is no remark. -/
theorem contains_addEntry {defaults : NodeDefaults} {graph next : Graph} {entry : String × Json}
    (adds : addEntry defaults graph entry = .ok next) (name : String) :
    next.contains name = true ↔
      graph.contains name = true ∨ entry.1 = name ∧ isRemark name = false := by
  by_cases remark : isRemark entry.1 = true
  · rw [addEntry, if_pos remark] at adds
    cases adds
    constructor
    · exact .inl
    · rintro (old | ⟨rfl, plain⟩)
      · exact old
      · exact nomatch plain.symm.trans remark
  · rw [addEntry, if_neg remark] at adds
    cases read : Node.ofJson entry.1 entry.2 defaults with
    | error cause =>
      rw [read] at adds
      exact nomatch adds
    | ok node =>
      rw [read] at adds
      cases adds
      rw [contains_insert, Node.name_ofJson read]
      constructor
      · rintro (rfl | old)
        · exact .inr ⟨rfl, Bool.eq_false_iff.mpr remark⟩
        · exact .inl old
      · rintro (old | ⟨same, -⟩)
        · exact .inr old
        · exact .inl same

theorem contains_foldlM {defaults : NodeDefaults} {entries : List (String × Json)}
    {start graph : Graph} (folded : entries.foldlM (addEntry defaults) start = .ok graph)
    (name : String) :
    graph.contains name = true ↔ start.contains name = true ∨
      isRemark name = false ∧ ∃ value, (name, value) ∈ entries := by
  induction entries generalizing start with
  | nil =>
    cases folded
    simp
  | cons entry entries ih =>
    rw [List.foldlM_cons] at folded
    obtain ⟨next, adds, folded⟩ := bind_eq_ok_iff.mp folded
    rw [ih folded, contains_addEntry adds]
    obtain ⟨key, value⟩ := entry
    simp only [List.mem_cons, Prod.mk.injEq]
    constructor
    · rintro ((old | ⟨rfl, plain⟩) | ⟨plain, value', member⟩)
      · exact .inl old
      · exact .inr ⟨plain, value, .inl ⟨rfl, rfl⟩⟩
      · exact .inr ⟨plain, value', .inr member⟩
    · rintro (old | ⟨plain, value', ⟨rfl, -⟩ | member⟩)
      · exact .inl (.inl old)
      · exact .inl (.inr ⟨rfl, plain⟩)
      · exact .inr ⟨plain, value', member⟩

/-- **The graph of a document has the names that the document defines.** -/
theorem contains_ofJson {defaults : NodeDefaults} {document : Json} {graph : Graph}
    (reads : ofJson defaults document = .ok graph) (name : String) :
    graph.contains name = true ↔ Defines document name := by
  cases document with
  | object entries =>
    rw [contains_foldlM reads]
    simp [Defines, contains, empty]
  | _ => cases reads

/-- The graph has the names of another one and those that documents define. -/
def Covers (base : Graph) (documents : List Json) (graph : Graph) : Prop :=
  ∀ name, graph.contains name = true ↔
    base.contains name = true ∨ ∃ document ∈ documents, Defines document name

theorem covers_self (graph : Graph) : graph.Covers [] graph := by
  intro name
  simp

/-- The graph of a document covers it. -/
theorem covers_ofJson {defaults : NodeDefaults} {document : Json} {graph : Graph}
    (reads : ofJson defaults document = .ok graph) : empty.Covers [document] graph := by
  intro name
  rw [contains_ofJson reads name]
  simp [contains, empty]

/-- A graph that is overlaid with another one covers what both cover. -/
theorem Covers.merged {base graph patch : Graph} {documents more : List Json}
    (covers : base.Covers documents graph) (also : empty.Covers more patch) :
    base.Covers (documents ++ more) (graph.merged patch) := by
  intro name
  have none : empty.contains name = false := by simp [contains, empty]
  rw [contains_merged, covers name, also name, none]
  simp only [Bool.false_eq_true, false_or, List.mem_append, or_and_right, exists_or, or_assoc]

end Graph

end ScreenPilot
