import ScreenPilot.Proofs.Activity.Differences
import ScreenPilot.Proofs.Graph.Unions
import ScreenPilot.Resource

/-!
# Documents loaded one after another

A document that can be read is laid over the graph of the resource, and one that cannot leaves
the resource as it was (`Resource.carry_loadJson`, `Resource.carry_loadJson_error`). So documents
that are loaded one after another, when nobody interferes, leave the graph as if their union had
been loaded, and it does not matter how they are grouped (`Resource.graph_loadAll`).

This is one of the laws that make documents and graphs the same thing as far as overriding is
concerned (`Graph.overlay_laws`).
-/

set_option autoImplicit false

namespace ScreenPilot

namespace Resource

variable {ω : Type} {surroundings : Surroundings loading Resource ω}

/-- The resource with overrides loaded into its graph. -/
def overlaid (overrides : Graph) (resource : Resource) : Resource :=
  { resource with graph := resource.graph.merged overrides, loaded := true }

/-- **A document that can be read is loaded**, when nobody interferes. -/
theorem carry_loadJson (alone : ∀ before, surroundings.meanwhile before = before)
    {resource : Resource} {document : Json} {overrides : Graph}
    (defines : Graph.ofJson resource.defaults document = .ok overrides) (world : ω) :
    surroundings.carry (loadJson document) (resource, world) =
      (.ok (), resource.overlaid overrides, world) := by
  unfold loadJson publish
  simp only [Surroundings.carry_bind, Surroundings.carry_reads, alone, defines]
  simp only [Surroundings.carry_modify, alone]
  rfl

/-- A document that cannot be read changes nothing. -/
theorem carry_loadJson_error (alone : ∀ before, surroundings.meanwhile before = before)
    {resource : Resource} {document : Json} {error : EngineError}
    (fails : Graph.ofJson resource.defaults document = .error error) (world : ω) :
    surroundings.carry (loadJson document) (resource, world) = (.error error, resource, world) := by
  unfold loadJson
  simp only [Surroundings.carry_bind, Surroundings.carry_reads, alone, fails]
  rfl

/-- Loads objects one after another. -/
def loadAll (tables : List Json.Table) : Loading (List (Outcome Unit)) :=
  tables.mapM fun table => loadJson (.ofTable table)

/-- **Objects that can be read are all loaded, and their graphs lie over that of the resource.** -/
theorem carry_loadAll (alone : ∀ before, surroundings.meanwhile before = before)
    {resource : Resource} {tables : List Json.Table}
    (parses : ∀ table ∈ tables, Graph.Parses resource.defaults table) (world : ω) :
    ∃ result, surroundings.carry (loadAll tables) (resource, world) =
        (tables.map fun _ => .ok (), result, world) ∧
      resource.graph.Overlaid
        (fun table graph => Graph.ofJson resource.defaults (.ofTable table) = .ok graph) tables
        result.graph := by
  induction tables generalizing resource with
  | nil => exact ⟨resource, rfl, [], .nil, rfl⟩
  | cons table tables ih =>
    obtain ⟨first, rest⟩ := List.forall_mem_cons.mp parses
    obtain ⟨graph, reads⟩ := Graph.exists_ofJson_iff.mpr first
    have rest' : ∀ table ∈ tables, Graph.Parses (resource.overlaid graph).defaults table := rest
    obtain ⟨result, loads, overlaid⟩ := ih rest'
    refine ⟨result, ?_, overlaid.cons reads⟩
    simp only [loadAll] at loads ⊢
    rw [List.mapM_cons, Surroundings.carry_bind, carry_loadJson alone reads,
      Surroundings.carry_bind, loads]
    rfl

/-- **However objects are grouped, to load the unions of the groups is to load the objects**: the
graph is overlaid by that of the union of them all. -/
theorem graph_loadAll (alone : ∀ before, surroundings.meanwhile before = before)
    {resource : Resource} {groups : List (List Json.Table)}
    (parses : ∀ group ∈ groups, ∀ table ∈ group, Graph.Parses resource.defaults table)
    (world : ω) :
    ∃ union, Graph.ofJson resource.defaults (.ofTable (.overlaid groups.flatten)) = .ok union ∧
      (surroundings.carry (loadAll groups.flatten) (resource, world)).1 =
        groups.flatten.map (fun _ => .ok ()) ∧
      (surroundings.carry (loadAll groups.flatten) (resource, world)).2.1.graph =
        resource.graph.merged union ∧
      (surroundings.carry (loadAll (groups.map .overlaid)) (resource, world)).2.1.graph =
        resource.graph.merged union := by
  have each : ∀ table ∈ groups.flatten, Graph.Parses resource.defaults table := by
    intro table member
    obtain ⟨group, isGroup, inGroup⟩ := List.mem_flatten.mp member
    exact parses group isGroup table inGroup
  have unions : ∀ table ∈ groups.map .overlaid, Graph.Parses resource.defaults table := by
    intro table member
    obtain ⟨group, isGroup, rfl⟩ := List.mem_map.mp member
    exact .overlaid (parses group isGroup)
  obtain ⟨one, loads, overlaid⟩ := carry_loadAll alone each world
  obtain ⟨other, loads', overlaid'⟩ := carry_loadAll alone unions world
  obtain ⟨union, reads, same⟩ := Graph.ofJson_overlaid overlaid
  obtain ⟨union', reads', same'⟩ := Graph.ofJson_overlaid overlaid'
  rw [← Json.Table.overlaid_flatten, reads] at reads'
  cases reads'
  exact ⟨union, reads, by rw [loads], by rw [loads, same], by rw [loads', same']⟩

end Resource

namespace Graph

/-- What graphs that override graphs have to do with documents laid over documents. -/
structure OverlayLaws (defaults : NodeDefaults) : Prop where
  /-- An object is read exactly if each entry that is no remark is a node that can be read. -/
  reads : ∀ table, (∃ graph, ofJson defaults (.ofTable table) = .ok graph) ↔
    ∀ key value, table[key]? = some value → isRemark key = false →
      ∃ node, Node.ofJson key value defaults = .ok node
  /-- Otherwise it fails as the entry that cannot be read and has the least key. Keys are in the
  order of their code points, which is that of their bytes. -/
  fails : ∀ table error, ofJson defaults (.ofTable table) = .error error ↔
    ∃ key value, table[key]? = some value ∧ isRemark key = false ∧
      Node.ofJson key value defaults = .error error ∧
      ∀ other value', table[other]? = some value' → isRemark other = false → other < key →
        ∃ node, Node.ofJson other value' defaults = .ok node
  /-- A load that fails leaves nothing behind. -/
  unloaded : ∀ {ω : Type} (surroundings : Surroundings Resource.loading Resource ω),
    (∀ before, surroundings.meanwhile before = before) →
    ∀ (resource : Resource) (table : Json.Table) (error : EngineError) (world : ω),
      resource.defaults = defaults → ofJson defaults (.ofTable table) = .error error →
      surroundings.carry (Resource.loadJson (.ofTable table)) (resource, world) =
        (.error error, resource, world)
  /-- The union of two objects is read as their graphs, merged. -/
  union : ∀ (table patch : Json.Table) (graph overrides : Graph),
    ofJson defaults (.ofTable table) = .ok graph →
    ofJson defaults (.ofTable patch) = .ok overrides →
    ofJson defaults (.ofTable (table ∪ patch)) = .ok (graph.merged overrides)
  /-- To put the nodes in place one after another, in any order, is to merge. -/
  inserts : ∀ (base overrides : Graph) (nodes : List Node), nodes.Perm overrides.toList →
    nodes.foldl insert base = base.merged overrides
  assoc : ∀ first second third : Graph,
    (first.merged second).merged third = first.merged (second.merged third)
  emptyLeft : ∀ graph : Graph, empty.merged graph = graph
  emptyRight : ∀ graph : Graph, graph.merged empty = graph
  self : ∀ graph : Graph, graph.merged graph = graph
  /-- Nodes are replaced as a whole, by name. -/
  replaces : ∀ (base overrides : Graph) (name : String),
    (base.merged overrides).find? name = (overrides.find? name).or (base.find? name)
  /-- Objects that can be read are all loaded, one after another, and those of a group may be
  loaded as one. -/
  loads : ∀ {ω : Type} (surroundings : Surroundings Resource.loading Resource ω),
    (∀ before, surroundings.meanwhile before = before) →
    ∀ (resource : Resource) (groups : List (List Json.Table)) (world : ω),
      resource.defaults = defaults →
      (∀ group ∈ groups, ∀ table ∈ group,
        ∃ graph, ofJson defaults (.ofTable table) = .ok graph) →
      ∃ union, ofJson defaults (.ofTable (.overlaid groups.flatten)) = .ok union ∧
        (surroundings.carry (Resource.loadAll groups.flatten) (resource, world)).1 =
          groups.flatten.map (fun _ => .ok ()) ∧
        (surroundings.carry (Resource.loadAll groups.flatten) (resource, world)).2.1.graph =
          resource.graph.merged union ∧
        (surroundings.carry (Resource.loadAll (groups.map .overlaid)) (resource, world)).2.1.graph =
          resource.graph.merged union

/-- **Merging graphs is merging documents.** -/
theorem overlay_laws (defaults : NodeDefaults) : OverlayLaws defaults where
  reads _ := exists_ofJson_iff
  fails _ _ := ofJson_eq_error_iff
  unloaded _ alone resource _ _ world := by
    rintro rfl fails
    exact Resource.carry_loadJson_error alone fails world
  union _ _ _ _ reads reads' := ofJson_union reads reads'
  inserts _ _ _ perm := foldl_insert_eq_merged perm
  assoc := merged_assoc
  emptyLeft := empty_merged
  emptyRight := merged_empty
  self := merged_self
  replaces := find?_merged
  loads _ alone resource groups world := by
    rintro rfl reads
    apply Resource.graph_loadAll alone
    intro group isGroup table inGroup
    exact exists_ofJson_iff.mp (reads group isGroup table inGroup)

/-! ### A node that is replaced -/

/-- Two nodes, one of which waits before it acts. -/
def pairTable : Json.Table :=
  ((∅ : Json.Table).insert "A" (.object [("pre_delay", .integer 5)])).insert "B" (.object [])

/-- One of the nodes again, which is off here. -/
def patchTable : Json.Table := (∅ : Json.Table).insert "A" (.object [("enabled", .bool false)])

def waiting : Node := { Node.ofDefaults "A" default with preDelay := 5 }

def disabled : Node := { Node.ofDefaults "A" default with enabled := false }

/-- The node that comes second takes nothing over from the one it replaces, and the other node
stays as it was. -/
theorem overlay_laws_replaced :
    ofJson default (.ofTable pairTable) =
        .ok ((empty.insert waiting).insert (Node.ofDefaults "B" default)) ∧
      ofJson default (.ofTable patchTable) = .ok (empty.insert disabled) ∧
      ∃ merged, ofJson default (.ofTable (pairTable ∪ patchTable)) = .ok merged ∧
        merged.find? "A" = some disabled ∧
        merged.find? "B" = some (Node.ofDefaults "B" default) := by
  have reads : ofJson default (.ofTable pairTable) =
      .ok ((empty.insert waiting).insert (Node.ofDefaults "B" default)) := by
    with_unfolding_all rfl
  have reads' : ofJson default (.ofTable patchTable) = .ok (empty.insert disabled) := by
    with_unfolding_all rfl
  have laws := overlay_laws default
  refine ⟨reads, reads', _, laws.union _ _ _ _ reads reads', ?_, ?_⟩
  · rw [laws.replaces, find?_insert]
    rfl
  · rw [laws.replaces, find?_insert, find?_insert]
    rfl

end Graph

end ScreenPilot
