import ScreenPilot.Graph.Basic

/-!
# What a run remembers

A run remembers which node was hit last for every label, which nodes were
interrupted and not yet resumed, and how often each node was hit. A node that
has been hit as often as it may be is not looked for any more, so the hits that
a graph still allows only ever get fewer; `Memory.remaining_hit_lt` says so.
-/

set_option autoImplicit false

namespace ScreenPilot

/-- What a run remembers. -/
structure Memory where
  /-- The node that was hit last, for each label. -/
  checkpoints : Std.ExtTreeMap String String
  /-- The nodes that were interrupted, the last one first. -/
  interrupted : List String
  hits : Std.ExtTreeMap String UInt32

namespace Memory

/-- What a run remembers at its beginning. -/
def empty : Memory := ⟨∅, [], ∅⟩

instance : Inhabited Memory := ⟨empty⟩

/-- How often a node was hit. -/
def hitsOf (memory : Memory) (name : String) : UInt32 := memory.hits.getD name 0

/-- The memory after a hit: it is counted, and the node's labels lead to it. -/
def hit (memory : Memory) (node : Node) : Memory :=
  { memory with
    hits := memory.hits.insert node.name (memory.hitsOf node.name + 1)
    checkpoints :=
      node.checkpoint.toList.foldl (fun checkpoints label => checkpoints.insert label node.name)
        memory.checkpoints }

/-- The memory after a node was interrupted. -/
def interrupt (memory : Memory) (name : String) : Memory :=
  { memory with interrupted := name :: memory.interrupted }

/-- The candidates after a node has completed, and from which position on they
are interrupts. A node that goes back to labels goes to the nodes these lead
to, and to none of its own. -/
def followers (memory : Memory) (node : Node) : List String × Nat :=
  if node.jumpback.isEmpty then node.followers
  else
    let targets := node.jumpback.filterMap fun label => memory.checkpoints[label]?
    (targets, targets.length)

/-- A node of a graph that a run may look for. -/
structure Eligible (graph : Graph) (memory : Memory) where
  node : Node
  found : graph.find? node.name = some node
  enabled : node.enabled
  /-- The node may be hit once more. -/
  below : memory.hitsOf node.name < node.maxHit

/-- The node under a name, if a run may look for it. -/
def eligible? {graph : Graph} (memory : Memory) {name : String} {node : Node}
    (found : graph.find? name = some node) : Option (Eligible graph memory) :=
  if able : node.enabled ∧ memory.hitsOf node.name < node.maxHit then
    some ⟨node, by rw [graph.named name node found]; exact found, able.1, able.2⟩
  else none

/-! ## Hits that are left -/

/-- The sum of numbers. -/
def total (numbers : List Nat) : Nat := numbers.foldr (· + ·) 0

/-- How often the nodes of a graph may still be hit. -/
def remaining (graph : Graph) (memory : Memory) : Nat :=
  total (graph.nodes.toList.map fun entry =>
    entry.2.maxHit.toNat - (memory.hitsOf entry.1).toNat)

theorem hitsOf_hit (memory : Memory) (node : Node) (name : String) :
    (memory.hit node).hitsOf name =
      if node.name = name then memory.hitsOf node.name + 1 else memory.hitsOf name := by
  show (memory.hits.insert node.name (memory.hitsOf node.name + 1)).getD name 0 = _
  simp only [Std.ExtTreeMap.getD_insert, Std.compare_eq_iff_eq, hitsOf]

/-- A sum does not grow if no summand does. -/
theorem total_map_le {α : Type} {before after : α → Nat} {list : List α}
    (noneGrows : ∀ item ∈ list, after item ≤ before item) :
    total (list.map after) ≤ total (list.map before) := by
  induction list with
  | nil => exact Nat.le_refl _
  | cons first rest ih =>
    have head := noneGrows first List.mem_cons_self
    have tail := ih fun item member => noneGrows item (List.mem_cons_of_mem first member)
    exact Nat.add_le_add head tail

/-- A sum gets smaller if no summand grows and one gets smaller. -/
theorem total_map_lt {α : Type} {before after : α → Nat} {list : List α}
    (noneGrows : ∀ item ∈ list, after item ≤ before item)
    (oneShrinks : ∃ item ∈ list, after item < before item) :
    total (list.map after) < total (list.map before) := by
  obtain ⟨item, member, smaller⟩ := oneShrinks
  induction list with
  | nil => exact absurd member List.not_mem_nil
  | cons first rest ih =>
    have head := noneGrows first List.mem_cons_self
    have tail : ∀ item ∈ rest, after item ≤ before item :=
      fun item member => noneGrows item (List.mem_cons_of_mem first member)
    rcases List.mem_cons.mp member with rfl | member
    · exact Nat.add_lt_add_of_lt_of_le smaller (total_map_le tail)
    · exact Nat.add_lt_add_of_le_of_lt head (ih tail member)

/-- A hit of a node that may be hit once more is counted. -/
theorem toNat_hitsOf_hit {graph : Graph} {memory : Memory} (hit : Eligible graph memory) :
    ((memory.hit hit.node).hitsOf hit.node.name).toNat =
      (memory.hitsOf hit.node.name).toNat + 1 := by
  have below : (memory.hitsOf hit.node.name).toNat < hit.node.maxHit.toNat :=
    UInt32.lt_iff_toNat_lt.mp hit.below
  have bound := hit.node.maxHit.toNat_lt
  rw [hitsOf_hit, if_pos rfl, UInt32.toNat_add]
  exact Nat.mod_eq_of_lt (by simp; omega)

/-- No node was hit less often after a hit. -/
theorem toNat_hitsOf_le {graph : Graph} {memory : Memory} (hit : Eligible graph memory)
    (name : String) :
    (memory.hitsOf name).toNat ≤ ((memory.hit hit.node).hitsOf name).toNat := by
  by_cases same : hit.node.name = name
  · rw [← same, toNat_hitsOf_hit hit]
    exact Nat.le_succ _
  · have kept : (memory.hit hit.node).hitsOf name = memory.hitsOf name := by
      rw [hitsOf_hit, if_neg same]
    exact Nat.le_of_eq (congrArg UInt32.toNat kept.symm)

/-- A hit leaves fewer hits. -/
theorem remaining_hit_lt {graph : Graph} {memory : Memory} (hit : Eligible graph memory) :
    remaining graph (memory.hit hit.node) < remaining graph memory := by
  have below : (memory.hitsOf hit.node.name).toNat < hit.node.maxHit.toNat :=
    UInt32.lt_iff_toNat_lt.mp hit.below
  have counted := toNat_hitsOf_hit hit
  refine total_map_lt ?_ ⟨(hit.node.name, hit.node), ?_, ?_⟩
  · intro entry _
    exact Nat.sub_le_sub_left (toNat_hitsOf_le hit entry.1) _
  · exact Std.ExtTreeMap.mem_toList_iff_getElem?_eq_some.mpr hit.found
  · show hit.node.maxHit.toNat - ((memory.hit hit.node).hitsOf hit.node.name).toNat <
      hit.node.maxHit.toNat - (memory.hitsOf hit.node.name).toNat
    omega

end Memory

end ScreenPilot
