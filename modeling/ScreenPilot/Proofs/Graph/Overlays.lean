import ScreenPilot.Proofs.Graph.Closed
import Std.Data.ExtTreeSet.Lemmas

/-!
# Graphs that override graphs

A graph that overrides another one replaces whole nodes: under each name the merged graph has
the node of the overrides, or else that of the base (`find?_merged`). All laws of merging follow
from this, and so does that it comes to the same to insert the nodes of the overrides one after
another, in whatever order (`foldl_insert_eq_merged`).

The check of a merged graph is told from the two graphs (`issues_merged`). A reference is
satisfied by either of them, so nodes that come on top never harm the nodes that stay. A label
is declared by the nodes that win only, and here an override can do harm: it removes a
declaration by replacing the node that makes it (`Graph.RemovesLast`).
-/

set_option autoImplicit false

namespace ScreenPilot

namespace Graph

/-! ## Nodes under their names -/

/-- Graphs with the same nodes are the same. -/
theorem eq_of_find? {left right : Graph} (same : ∀ name, left.find? name = right.find? name) :
    left = right := by
  obtain ⟨nodes, named⟩ := left
  obtain ⟨nodes', named'⟩ := right
  simp only [mk.injEq]
  exact Std.ExtTreeMap.ext_getElem? fun {name} => same name

@[simp] theorem find?_empty (name : String) : empty.find? name = none := by
  simp [find?, empty]

/-- **Of two nodes with one name, that of the overrides is in the merged graph.** -/
@[simp] theorem find?_merged (base overrides : Graph) (name : String) :
    (base.merged overrides).find? name = (overrides.find? name).or (base.find? name) := by
  simp only [find?, merged, Std.ExtTreeMap.getElem?_union]

theorem contains_eq_isSome (graph : Graph) (name : String) :
    graph.contains name = (graph.find? name).isSome :=
  Std.ExtTreeMap.contains_eq_isSome_getElem?

theorem contains_eq_false_iff {graph : Graph} {name : String} :
    graph.contains name = false ↔ graph.find? name = none := by
  simp only [contains_eq_isSome, Option.isSome_eq_false_iff, Option.isNone_iff_eq_none]

/-! ## Laws of merging -/

theorem merged_assoc (first second third : Graph) :
    (first.merged second).merged third = first.merged (second.merged third) := by
  apply eq_of_find?
  intro name
  simp only [find?_merged, Option.or_assoc]

theorem empty_merged (graph : Graph) : empty.merged graph = graph := by
  apply eq_of_find?
  intro name
  simp

theorem merged_self (graph : Graph) : graph.merged graph = graph := by
  apply eq_of_find?
  intro name
  simp

/-- The nodes of a graph have different names. -/
theorem nodup_names (graph : Graph) : (graph.toList.map Node.name).Nodup := by
  have names : graph.toList.map Node.name = graph.nodes.keys := by
    have keys : graph.nodes.keys = graph.nodes.toList.map Prod.fst :=
      Std.ExtTreeMap.map_fst_toList_eq_keys.symm
    rw [keys]
    show graph.nodes.values.map Node.name = _
    rw [values_eq_map_toList, List.map_map]
    apply List.map_congr_left
    rintro ⟨name, node⟩ member
    exact graph.named name node (Std.ExtTreeMap.mem_toList_iff_getElem?_eq_some.mp member)
  rw [names]
  exact Std.ExtTreeMap.nodup_keys

/-- Nodes with different names that are inserted are there, and the others are as before. -/
theorem find?_foldl_insert (nodes : List Node) (distinct : (nodes.map Node.name).Nodup)
    (base : Graph) (name : String) :
    (nodes.foldl insert base).find? name =
      (nodes.find? fun node => node.name = name).or (base.find? name) := by
  induction nodes generalizing base with
  | nil => rfl
  | cons node nodes ih =>
    rw [List.map_cons, List.nodup_cons] at distinct
    rw [List.foldl_cons, ih distinct.2, find?_insert]
    by_cases same : node.name = name
    · have others : nodes.find? (fun other => other.name = name) = none := by
        simp only [List.find?_eq_none, decide_eq_true_eq]
        intro other member equal
        exact distinct.1 (List.mem_map.mpr ⟨other, member, equal.trans same.symm⟩)
      simp [others, same]
    · simp [same]

/-- **To insert the nodes of a graph one after another, in any order, is to merge it.** -/
theorem foldl_insert_eq_merged {base overrides : Graph} {nodes : List Node}
    (perm : nodes.Perm overrides.toList) : nodes.foldl insert base = base.merged overrides := by
  have distinct : (nodes.map Node.name).Nodup :=
    (perm.map Node.name).nodup_iff.mpr overrides.nodup_names
  apply eq_of_find?
  intro name
  rw [find?_foldl_insert nodes distinct, find?_merged]
  congr 1
  cases found : nodes.find? fun node => node.name = name with
  | none =>
    cases here : overrides.find? name with
    | none => rfl
    | some node =>
      have named := name_of_find? here
      have member : node ∈ nodes := perm.mem_iff.mpr (mem_toList.mpr (by rwa [named]))
      simp only [List.find?_eq_none, decide_eq_true_eq] at found
      exact absurd named (found node member)
  | some node =>
    have named : node.name = name := by simpa using List.find?_some found
    have member := mem_toList.mp (perm.mem_iff.mp (List.mem_of_find?_eq_some found))
    rw [← named, member]

/-! ## What the check reports -/

/-- A reference is reported exactly if a node makes it and no node has the name. -/
theorem unknownReference_mem_issues {graph : Graph} {name target : String} :
    .unknownReference name target ∈ graph.issues ↔
      ∃ node, graph.find? name = some node ∧ target ∈ node.references ∧
        graph.contains target = false := by
  simp only [issues, List.mem_flatMap, unknownReference_mem_issuesOf, mem_toList]
  constructor
  · rintro ⟨node, here, rfl, listed, unknown⟩
    exact ⟨node, here, listed, unknown⟩
  · rintro ⟨node, here, listed, unknown⟩
    have named := name_of_find? here
    exact ⟨node, by rwa [named], named, listed, unknown⟩

theorem declares_iff {graph : Graph} {label : String} :
    graph.declares label = true ↔
      ∃ name node, graph.find? name = some node ∧ label ∈ node.checkpoint := by
  simp only [declares, List.any_eq_true, mem_toList, Std.ExtTreeSet.contains_iff_mem]
  constructor
  · rintro ⟨node, here, declared⟩
    exact ⟨node.name, node, here, declared⟩
  · rintro ⟨name, node, here, declared⟩
    exact ⟨node, by rwa [name_of_find? here], declared⟩

theorem undeclaredLabel_mem_issuesOf {graph : Graph} {node : Node} {name label : String} :
    .undeclaredLabel name label ∈ graph.issuesOf node ↔
      node.name = name ∧ label ∈ node.jumpback ∧ graph.declares label = false := by
  simp only [issuesOf, List.mem_append, List.mem_map, List.mem_filter, decide_eq_true_eq,
    Bool.not_eq_true, GraphIssue.undeclaredLabel.injEq, reduceCtorEq, and_false, exists_false,
    false_or]
  constructor
  · rintro ⟨listed, ⟨member, undeclared⟩, same, rfl⟩
    exact ⟨same, member, undeclared⟩
  · rintro ⟨same, member, undeclared⟩
    exact ⟨label, ⟨member, undeclared⟩, same, rfl⟩

theorem declares_eq_false_iff {graph : Graph} {label : String} :
    graph.declares label = false ↔
      ∀ name node, graph.find? name = some node → label ∉ node.checkpoint := by
  simp only [← Bool.not_eq_true, declares_iff, not_exists, not_and]

/-- A label is reported exactly if a node goes back to it and no node has it. -/
theorem undeclaredLabel_mem_issues {graph : Graph} {name label : String} :
    .undeclaredLabel name label ∈ graph.issues ↔
      ∃ node, graph.find? name = some node ∧ label ∈ node.jumpback ∧
        ∀ other declarer, graph.find? other = some declarer → label ∉ declarer.checkpoint := by
  simp only [issues, List.mem_flatMap, undeclaredLabel_mem_issuesOf, mem_toList,
    declares_eq_false_iff]
  constructor
  · rintro ⟨node, here, rfl, listed, nobody⟩
    exact ⟨node, here, listed, nobody⟩
  · rintro ⟨node, here, listed, nobody⟩
    have named := name_of_find? here
    exact ⟨node, by rwa [named], named, listed, nobody⟩

/-! ## The check of a merged graph -/

/-- The definition of a name that holds when a graph is overridden: that of the overrides if
they have one, or else that of the base. -/
def winner (base overrides : Graph) (name : String) : Option Node :=
  if overrides.contains name then overrides.find? name else base.find? name

theorem find?_merged_eq_winner (base overrides : Graph) (name : String) :
    (base.merged overrides).find? name = base.winner overrides name := by
  rw [find?_merged, winner]
  split
  case isTrue has =>
    obtain ⟨node, here⟩ := contains_iff.mp has
    rw [here, Option.some_or]
  case isFalse lacks =>
    rw [Bool.not_eq_true, contains_eq_false_iff] at lacks
    rw [lacks, Option.none_or]

/-- The base has nodes that declare a label, each of them is overridden, and no override
declares the label. -/
structure RemovesLast (base overrides : Graph) (label : String) : Prop where
  declared : ∃ name node, base.find? name = some node ∧ label ∈ node.checkpoint
  overridden : ∀ name node, base.find? name = some node → label ∈ node.checkpoint →
    overrides.contains name = true
  undeclared : ∀ name node, overrides.find? name = some node → label ∉ node.checkpoint

variable {base overrides : Graph}

/-- No definition that holds has a label that the base declares exactly if the overrides remove
its last declaration. -/
theorem removesLast_iff {label : String} :
    base.RemovesLast overrides label ↔
      (∃ name node, base.find? name = some node ∧ label ∈ node.checkpoint) ∧
        ∀ other declarer, base.winner overrides other = some declarer →
          label ∉ declarer.checkpoint := by
  constructor
  · rintro ⟨declared, overridden, undeclared⟩
    refine ⟨declared, fun other declarer wins has => ?_⟩
    rw [winner] at wins
    split at wins
    case isTrue => exact undeclared other declarer wins has
    case isFalse lacks => exact lacks (overridden other declarer wins has)
  · rintro ⟨declared, nobody⟩
    refine ⟨declared, fun name node here has => ?_, fun name node here has => ?_⟩
    · rw [← Bool.not_eq_false]
      intro lacks
      exact nobody name node (by rw [winner, lacks, if_neg Bool.false_ne_true, here]) has
    · have contains : overrides.contains name = true := contains_iff.mpr ⟨node, here⟩
      exact nobody name node (by rw [winner, if_pos contains, here]) has

theorem unknownReference_mem_merged {name target : String} :
    .unknownReference name target ∈ (base.merged overrides).issues ↔
      ∃ node, base.winner overrides name = some node ∧ target ∈ node.references ∧
        base.contains target = false ∧ overrides.contains target = false := by
  have absent : (base.merged overrides).contains target = false ↔
      base.contains target = false ∧ overrides.contains target = false := by
    simp only [← Bool.not_eq_true, contains_merged, not_or]
  simp only [unknownReference_mem_issues, find?_merged_eq_winner, absent]

theorem undeclaredLabel_mem_merged {name label : String} :
    .undeclaredLabel name label ∈ (base.merged overrides).issues ↔
      ∃ node, base.winner overrides name = some node ∧ label ∈ node.jumpback ∧
        ∀ other declarer, base.winner overrides other = some declarer →
          label ∉ declarer.checkpoint := by
  simp only [undeclaredLabel_mem_issues, find?_merged_eq_winner]

/-- A graph in which every reference leads to a node of either graph is closed when both are
merged. -/
theorem Closed.merged (closed : base.Closed)
    (resolves : ∀ name node, overrides.find? name = some node → ∀ target ∈ node.references,
      base.contains target = true ∨ overrides.contains target = true) :
    (base.merged overrides).Closed := by
  intro name node found target listed
  rw [contains_merged]
  rw [find?_merged_eq_winner, winner] at found
  split at found
  case isTrue => exact resolves name node found target listed
  case isFalse => exact .inl (closed name node found target listed)

/-- A graph is closed exactly if nothing fatal is reported of it. -/
theorem closed_iff_no_fatal {graph : Graph} :
    graph.Closed ↔ ∀ issue ∈ graph.issues, issue.isFatal = false := by
  simp only [closed_iff_none_fatal, List.countP_eq_zero, Bool.not_eq_true]

/-- **What is reported of a merged graph.** Let a graph be overridden. An unknown reference is
reported exactly if the definition that wins makes it and neither graph has the target. A label
is reported exactly if the definition that wins goes back to it and no definition that wins
declares it.

So nothing fatal comes up at a node that is not overridden; and if nothing is fatal in the base
and each reference of the overrides leads to a node of one of the graphs, then nothing is fatal
in the merged graph. But a label comes up at a node that is not overridden, exactly if the node
goes back to it and the overrides remove its last declaration. -/
theorem issues_merged (base overrides : Graph) :
    (∀ name target, .unknownReference name target ∈ (base.merged overrides).issues ↔
      ∃ node, base.winner overrides name = some node ∧
        (target ∈ node.next ∨ target ∈ node.interrupt ∨ target ∈ node.onError) ∧
        base.contains target = false ∧ overrides.contains target = false) ∧
    (∀ name label, .undeclaredLabel name label ∈ (base.merged overrides).issues ↔
      ∃ node, base.winner overrides name = some node ∧ label ∈ node.jumpback ∧
        ∀ other declarer, base.winner overrides other = some declarer →
          label ∉ declarer.checkpoint) ∧
    (∀ name target, overrides.contains name = false →
      .unknownReference name target ∈ (base.merged overrides).issues →
      .unknownReference name target ∈ base.issues) ∧
    ((∀ issue ∈ base.issues, issue.isFatal = false) →
      (∀ name node, overrides.find? name = some node →
        ∀ target, target ∈ node.next ∨ target ∈ node.interrupt ∨ target ∈ node.onError →
          base.contains target = true ∨ overrides.contains target = true) →
      ∀ issue ∈ (base.merged overrides).issues, issue.isFatal = false) ∧
    ∀ name label, overrides.contains name = false →
      (.undeclaredLabel name label ∈ (base.merged overrides).issues ∧
          .undeclaredLabel name label ∉ base.issues ↔
        (∃ node, base.find? name = some node ∧ label ∈ node.jumpback) ∧
          base.RemovesLast overrides label) := by
  have listed (node : Node) (target : String) : target ∈ node.references ↔
      target ∈ node.next ∨ target ∈ node.interrupt ∨ target ∈ node.onError := by
    simp only [Node.references, List.mem_append, or_assoc]
  have untouched {name : String} (lacks : overrides.contains name = false) :
      base.winner overrides name = base.find? name := by
    rw [winner, lacks, if_neg Bool.false_ne_true]
  refine ⟨fun name target => ?_, fun name label => undeclaredLabel_mem_merged,
    fun name target lacks reported => ?_, fun noneFatal resolves => ?_, fun name label lacks => ?_⟩
  · simp only [unknownReference_mem_merged, listed]
  · obtain ⟨node, wins, makes, absent, -⟩ := unknownReference_mem_merged.mp reported
    rw [untouched lacks] at wins
    exact unknownReference_mem_issues.mpr ⟨node, wins, makes, absent⟩
  · apply closed_iff_no_fatal.mp
    refine (closed_iff_no_fatal.mpr noneFatal).merged fun name node found target makes => ?_
    exact resolves name node found target ((listed node target).mp makes)
  · rw [undeclaredLabel_mem_merged, undeclaredLabel_mem_issues, removesLast_iff, untouched lacks]
    constructor
    · rintro ⟨⟨node, found, returns, nobody⟩, declared⟩
      refine ⟨⟨node, found, returns⟩, declares_iff.mp ?_, nobody⟩
      rw [← Bool.not_eq_false]
      intro undeclared
      exact declared ⟨node, found, returns, declares_eq_false_iff.mp undeclared⟩
    · rintro ⟨⟨node, found, returns⟩, ⟨other, declarer, here, has⟩, nobody⟩
      refine ⟨⟨node, found, returns, nobody⟩, ?_⟩
      rintro ⟨-, -, -, undeclared⟩
      exact undeclared other declarer here has

/-- A node that goes back to a label. -/
def returner : Node := { Node.ofDefaults "A" default with jumpback := ["home"] }

/-- A node that declares the label. -/
def home : Node := { Node.ofDefaults "B" default with checkpoint := Node.labelSet ["home"] }

/-- The override of this node that does not declare it. -/
def blank : Node := Node.ofDefaults "B" default

/-- A label comes up at a node that is not overridden. -/
theorem issues_merged_returning :
    (empty.insert blank).contains "A" = false ∧
      .undeclaredLabel "A" "home" ∈
        (((empty.insert home).insert returner).merged (empty.insert blank)).issues ∧
      .undeclaredLabel "A" "home" ∉ ((empty.insert home).insert returner).issues := by
  have lacks : (empty.insert blank).contains "A" = false := by
    rw [contains_eq_false_iff, find?_insert]
    rfl
  have found : ((empty.insert home).insert returner).find? "A" = some returner := by
    rw [find?_insert]
    rfl
  have removes : ((empty.insert home).insert returner).RemovesLast (empty.insert blank) "home" := by
    refine ⟨⟨"B", home, ?_, ?_⟩, fun name node here has => ?_, fun name node here has => ?_⟩
    · rw [find?_insert, find?_insert]
      rfl
    · simp [home, Node.labelSet]
    · rw [find?_insert, find?_insert] at here
      split at here
      · cases here
        simp [returner, Node.ofDefaults] at has
      · split at here
        case isTrue same => exact contains_insert.mpr (.inl same)
        case isFalse => simp at here
    · rw [find?_insert] at here
      split at here
      · cases here
        simp [blank, Node.ofDefaults] at has
      · simp at here
  refine ⟨lacks,
    ((issues_merged _ _).2.2.2.2 "A" "home" lacks).mpr ⟨⟨returner, found, ?_⟩, removes⟩⟩
  exact List.mem_singleton.mpr rfl

end Graph

end ScreenPilot
