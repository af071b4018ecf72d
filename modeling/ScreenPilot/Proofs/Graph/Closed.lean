import ScreenPilot.Graph.Issue

/-!
# Closed graphs

A graph is closed if every name that one of its nodes lists is the name of a
node. This is what the check of a graph finds out: a graph is closed exactly if
none of its issues is an unknown reference (`closed_iff_no_unknown`), which is
to say that none is fatal (`closed_iff_none_fatal`).

The labels a node goes back to are no names and take no part in this. Where
they lead is known in a run only.
-/

set_option autoImplicit false

namespace ScreenPilot

/-- The values of a map are those of its entries. -/
theorem values_eq_map_toList {α β : Type} {cmp : α → α → Ordering} [Std.TransCmp cmp]
    (map : Std.ExtTreeMap α β cmp) : map.values = map.toList.map Prod.snd := by
  obtain ⟨⟨inner⟩⟩ := map
  induction inner using Quotient.inductionOn with
  | h inner =>
    obtain ⟨tree, ordered⟩ := inner
    show tree.values = (Std.DTreeMap.Internal.Impl.Const.toList tree).map Prod.snd
    rw [Std.DTreeMap.Internal.Impl.values_eq_map_snd,
      Std.DTreeMap.Internal.Impl.Const.toList_eq_toListModel_map, List.map_map]
    rfl

namespace Graph

variable {graph : Graph}

/-! ## Nodes and their names -/

theorem contains_iff {name : String} :
    graph.contains name = true ↔ ∃ node, graph.find? name = some node := by
  show graph.nodes.contains name = true ↔ ∃ node, graph.nodes[name]? = some node
  rw [Std.ExtTreeMap.contains_eq_isSome_getElem?]
  exact Option.isSome_iff_exists

theorem contains_of_find? {name : String} {node : Node} (found : graph.find? name = some node) :
    graph.contains name = true :=
  contains_iff.mpr ⟨node, found⟩

/-- A node that is found has the name it was looked for under. -/
theorem name_of_find? {name : String} {node : Node} (found : graph.find? name = some node) :
    node.name = name :=
  graph.named name node found

/-- After an insertion the new node is found under its name, and the others are
found as before. -/
theorem find?_insert (graph : Graph) (node : Node) (name : String) :
    (graph.insert node).find? name = if node.name = name then some node else graph.find? name := by
  simp only [find?, insert, Std.ExtTreeMap.getElem?_insert, Std.compare_eq_iff_eq]

theorem contains_insert {node : Node} {name : String} :
    (graph.insert node).contains name = true ↔ node.name = name ∨ graph.contains name = true := by
  simp only [contains, insert, Std.ExtTreeMap.contains_insert, Bool.or_eq_true, beq_iff_eq,
    Std.compare_eq_iff_eq]

/-- An empty graph overrides nothing. -/
theorem merged_empty (graph : Graph) : graph.merged .empty = graph := by
  obtain ⟨nodes, named⟩ := graph
  simp only [merged, empty, mk.injEq]
  refine Std.ExtTreeMap.ext_getElem? fun name => ?_
  rw [Std.ExtTreeMap.getElem?_union, Std.ExtTreeMap.getElem?_empty, Option.none_or]

/-- A name is that of a node of a merged graph if it is one of either graph. -/
theorem contains_merged {overrides : Graph} {name : String} :
    (graph.merged overrides).contains name = true ↔
      graph.contains name = true ∨ overrides.contains name = true := by
  simp only [contains, merged, Std.ExtTreeMap.contains_union, Bool.or_eq_true]

/-- The nodes of a graph are those that are found under their own names. -/
theorem mem_toList {node : Node} : node ∈ graph.toList ↔ graph.find? node.name = some node := by
  show node ∈ graph.nodes.values ↔ graph.nodes[node.name]? = some node
  rw [values_eq_map_toList, List.mem_map]
  constructor
  · rintro ⟨⟨name, found⟩, member, rfl⟩
    have here := Std.ExtTreeMap.mem_toList_iff_getElem?_eq_some.mp member
    rw [graph.named name found here]
    exact here
  · intro here
    exact ⟨(node.name, node), Std.ExtTreeMap.mem_toList_iff_getElem?_eq_some.mpr here, rfl⟩

/-! ## Closed graphs -/

/-- Every name that a node lists is the name of a node. -/
def Closed (graph : Graph) : Prop :=
  ∀ name node, graph.find? name = some node →
    ∀ target ∈ node.references, graph.contains target = true

/-- What the nodes of a closed graph list is in it. -/
theorem Closed.contains_reference (closed : graph.Closed) {name target : String} {node : Node}
    (found : graph.find? name = some node)
    (listed : target ∈ node.next ∨ target ∈ node.interrupt ∨ target ∈ node.onError) :
    graph.contains target = true := by
  apply closed name node found target
  simpa only [Node.references, List.mem_append, or_assoc] using listed

theorem closed_empty : empty.Closed := by
  intro name node found
  simp [find?, empty] at found

/-- A closed graph stays so with one more node that lists nodes of the graph and
itself. -/
theorem Closed.insert (closed : graph.Closed) {node : Node}
    (listed : ∀ target ∈ node.references, (graph.insert node).contains target = true) :
    (graph.insert node).Closed := by
  intro name other found target member
  rw [find?_insert] at found
  split at found
  · cases found
    exact listed target member
  · exact contains_insert.mpr (.inr (closed name other found target member))

theorem unknownReference_mem_issuesOf {node : Node} {name target : String} :
    .unknownReference name target ∈ graph.issuesOf node ↔
      node.name = name ∧ target ∈ node.references ∧ graph.contains target = false := by
  simp only [issuesOf, List.mem_append, List.mem_map, List.mem_filter, decide_eq_true_eq,
    Bool.not_eq_true, GraphIssue.unknownReference.injEq, reduceCtorEq, and_false, exists_false,
    or_false]
  constructor
  · rintro ⟨listed, ⟨member, unknown⟩, same, rfl⟩
    exact ⟨same, member, unknown⟩
  · rintro ⟨same, member, unknown⟩
    exact ⟨target, ⟨member, unknown⟩, same, rfl⟩

/-- **A graph is closed exactly if the check reports no unknown reference.** -/
theorem closed_iff_no_unknown :
    graph.Closed ↔ ∀ node target, .unknownReference node target ∉ graph.issues := by
  constructor
  · intro closed name target reported
    obtain ⟨node, member, issue⟩ := List.mem_flatMap.mp reported
    obtain ⟨-, listed, unknown⟩ := unknownReference_mem_issuesOf.mp issue
    have known := closed node.name node (mem_toList.mp member) target listed
    rw [unknown] at known
    cases known
  · intro noneReported name node found target listed
    rw [← Bool.not_eq_false]
    intro unknown
    have here : graph.find? node.name = some node := by rw [name_of_find? found]; exact found
    exact noneReported node.name target (List.mem_flatMap.mpr
      ⟨node, mem_toList.mpr here, unknownReference_mem_issuesOf.mpr ⟨rfl, listed, unknown⟩⟩)

/-- A graph is closed exactly if none of its issues is fatal. -/
theorem closed_iff_none_fatal : graph.Closed ↔ graph.issues.countP GraphIssue.isFatal = 0 := by
  rw [closed_iff_no_unknown, List.countP_eq_zero]
  constructor
  · intro noneReported issue reported fatal
    cases issue with
    | unknownReference node target => exact noneReported node target reported
    | overlap => cases fatal
    | undeclaredLabel => cases fatal
  · intro noneFatal node target reported
    exact noneFatal _ reported rfl

end Graph

end ScreenPilot
