import ScreenPilot.Proofs.Graph.Closed
import ScreenPilot.Proofs.Run.Candidates
import ScreenPilot.Proofs.Run.Turns
import Std.Data.ExtTreeSet.Lemmas

/-!
# Runs on closed graphs

A run looks names up that come from five places: the entry, the owner of the
list it looks for, the candidates of the list, the nodes that labels lead to,
and the nodes that were interrupted. In a closed graph all of them are names of
nodes at all times (`turn_known`), so no run from a node comes to a name that no
node has.

A run may go on with the memory that earlier ones have left (`Remembers`). This
holds names of nodes as well, even if one of them began at a name that no node
has.
-/

set_option autoImplicit false

namespace ScreenPilot

/-- Everything a run remembers is the name of a node. -/
structure Memory.Known (graph : Graph) (memory : Memory) : Prop where
  checkpoints : ∀ label name : String, memory.checkpoints[label]? = some name →
    graph.contains name = true
  interrupted : ∀ name ∈ memory.interrupted, graph.contains name = true

/-- Every name a walk may look up is the name of a node. -/
structure Walk.Known (graph : Graph) (walk : Walk) : Prop where
  memory : walk.memory.Known graph
  owner : graph.contains walk.owner = true
  candidates : ∀ name ∈ walk.candidates, graph.contains name = true

/-- The run has not come to a name that no node has. -/
def RunResult.Resolved (result : RunResult) : Prop :=
  ∀ name, result ≠ .ended (.failed (.unknownNode name))

namespace Memory

variable {graph : Graph} {memory : Memory} {node : Node}

theorem known_empty : Memory.empty.Known graph where
  checkpoints := by simp [empty]
  interrupted := by simp [empty]

/-! ## Labels -/

theorem getElem?_foldl_insert (labels : List String) (name label : String)
    (checkpoints : Std.ExtTreeMap String String) :
    (labels.foldl (fun checkpoints label => checkpoints.insert label name) checkpoints)[label]? =
      if label ∈ labels then some name else checkpoints[label]? := by
  induction labels generalizing checkpoints with
  | nil => simp
  | cons first rest ih =>
    rw [List.foldl_cons, ih, Std.ExtTreeMap.getElem?_insert]
    simp only [Std.compare_eq_iff_eq, List.mem_cons, eq_comm (a := first)]
    split
    · rename_i later
      rw [if_pos (.inr later)]
    · rename_i notLater
      simp only [notLater, or_false]

/-- After a hit the labels of the node lead to it, and the others where they
led before. -/
theorem checkpoints_hit (memory : Memory) (node : Node) (label : String) :
    (memory.hit node).checkpoints[label]? =
      if label ∈ node.checkpoint.toList then some node.name else memory.checkpoints[label]? :=
  getElem?_foldl_insert _ _ _ _

/-! ## What is remembered stays known -/

theorem Known.hit (known : memory.Known graph) (here : graph.contains node.name = true) :
    (memory.hit node).Known graph where
  checkpoints := by
    intro label name leads
    rw [checkpoints_hit] at leads
    split at leads
    · cases leads
      exact here
    · exact known.checkpoints label name leads
  interrupted := known.interrupted

theorem Known.interrupt (known : memory.Known graph) {name : String}
    (here : graph.contains name = true) : (memory.interrupt name).Known graph where
  checkpoints := known.checkpoints
  interrupted := by
    intro other listed
    rcases List.mem_cons.mp listed with rfl | earlier
    · exact here
    · exact known.interrupted other earlier

/-- The candidates after a node are names of nodes, whether the node goes on or
goes back. -/
theorem Known.followers (known : memory.Known graph) (closed : graph.Closed)
    (found : graph.find? node.name = some node) :
    ∀ name ∈ (memory.followers node).1, graph.contains name = true := by
  intro name listed
  unfold Memory.followers at listed
  split at listed
  · rcases List.mem_append.mp listed with next | interrupt
    · exact closed.contains_reference found (.inl next)
    · exact closed.contains_reference found (.inr (.inl interrupt))
  · obtain ⟨label, -, leads⟩ := List.mem_filterMap.mp listed
    exact known.checkpoints label name leads

end Memory

namespace Walk

variable {graph : Graph} {memory : Memory} {node : Node}

theorem known_start (known : memory.Known graph) {entry : String}
    (here : graph.contains entry = true) : (start memory entry).Known graph where
  memory := known
  owner := here
  candidates := by
    intro name listed
    rw [List.mem_singleton.mp listed]
    exact here

theorem known_follow (known : memory.Known graph) (closed : graph.Closed)
    (found : graph.find? node.name = some node) (recovering : Bool) :
    (follow memory node recovering).Known graph where
  memory := known
  owner := Graph.contains_of_find? found
  candidates := known.followers closed found

/-- The nodes that handle the errors of a node are looked for under that node or
under another one. -/
theorem known_handle (known : memory.Known graph) (closed : graph.Closed) {name owner : String}
    (found : graph.find? name = some node) (here : graph.contains owner = true) :
    ({ handle memory node with owner } : Walk).Known graph where
  memory := known
  owner := here
  candidates := fun _ listed => closed.contains_reference found (.inr (.inr listed))

end Walk

namespace RunContext

open Engine Activity

variable {context : RunContext} {setting : Setting Engine} {walk : Walk}

/-! ## One turn -/

/-- A turn hands on a walk that knows its names, or it ends without having come
to an unknown one. -/
def TurnKnown (turn : Turn context.graph walk) : Prop :=
  turn.Holds (Walk.Known context.graph) fun memory result =>
    memory.Known context.graph ∧ result.Resolved

theorem resume_known (closed : context.graph.Closed) (known : walk.Known context.graph)
    (nothing : walk.candidates = []) : TurnKnown (context.resume walk nothing) := by
  unfold resume
  split
  · exact ⟨known.memory, nofun⟩
  · rename_i name interrupted stack
    have still : ∀ other ∈ name :: interrupted, context.graph.contains other = true := by
      rw [← stack]
      exact known.memory.interrupted
    have rest : ({ walk.memory with interrupted } : Memory).Known context.graph :=
      ⟨known.memory.checkpoints, fun other listed => still other (List.mem_cons_of_mem _ listed)⟩
    obtain ⟨node, found⟩ := Graph.contains_iff.mp (still name List.mem_cons_self)
    have named : context.graph.find? node.name = some node := by
      rw [Graph.name_of_find? found]
      exact found
    split
    · rename_i absent
      rw [found] at absent
      cases absent
    · rename_i other here
      rw [found] at here
      cases here
      exact Walk.known_follow rest closed named _

theorem afterMiss_known (closed : context.graph.Closed) (known : walk.Known context.graph)
    {owner : Node} (found : context.graph.find? walk.owner = some owner)
    (last : Option (String × RecoId)) (engine : Engine) :
    Ensures setting (context.afterMiss walk owner last) engine fun turn _ => TurnKnown turn := by
  refine .after fun visit _ => .after fun _ _ => ?_
  split
  · split
    · exact ensures_pure.mpr ⟨known.memory, nofun⟩
    · exact ensures_pure.mpr (Walk.known_handle known.memory closed found known.owner)
  · exact ensures_pure.mpr ⟨known.memory, nofun⟩

theorem afterHit_known (closed : context.graph.Closed) (known : walk.Known context.graph)
    (position : Nat) (hit : Memory.Eligible context.graph walk.memory) (reco : RecoResult)
    (engine : Engine) :
    Ensures setting (context.afterHit walk position hit reco) engine
      fun turn _ => TurnKnown turn := by
  have counted := known.memory.hit (Graph.contains_of_find? hit.found)
  have memory : (memoryAfterHit walk position hit.node).Known context.graph := by
    unfold memoryAfterHit
    simp only []
    split
    · exact counted.interrupt known.owner
    · exact counted
  refine .after fun visit _ => .after fun acted _ => ?_
  split
  · exact ensures_pure.mpr ⟨memory, nofun⟩
  · exact .after fun _ _ => ensures_pure.mpr ⟨memory, nofun⟩
  · refine .after fun _ _ => ?_
    split
    · exact ensures_pure.mpr (Walk.known_follow memory closed hit.found false)
    · split
      · exact ensures_pure.mpr ⟨memory, nofun⟩
      · split
        · exact ensures_pure.mpr ⟨memory, nofun⟩
        · exact ensures_pure.mpr (Walk.known_handle memory closed hit.found
            (Graph.contains_of_find? hit.found))

theorem look_known (closed : context.graph.Closed) (known : walk.Known context.graph)
    (something : walk.candidates ≠ []) (engine : Engine) :
    Ensures setting (context.look walk something) engine fun turn _ => TurnKnown turn := by
  obtain ⟨owner, found⟩ := Graph.contains_iff.mp known.owner
  unfold look
  split
  · rename_i absent
    rw [found] at absent
    cases absent
  · rename_i other here
    rw [found] at here
    cases here
    refine ensures_bind.mpr ((scan_fits context _ _ _ _ _).imp fun scan _ fits => ?_)
    split
    · exact afterHit_known closed known _ _ _ _
    · exact afterMiss_known closed known found _ _
    · exact ensures_pure.mpr ⟨known.memory, known.owner, nofun⟩
    · exact ensures_pure.mpr ⟨known.memory, nofun⟩
    · -- the name would be that of a candidate
      obtain ⟨listed, absent⟩ := fits
      obtain ⟨node, here⟩ := Graph.contains_iff.mp (known.candidates _ listed)
      rw [absent] at here
      cases here
    · exact ensures_pure.mpr ⟨known.memory, nofun⟩
    · exact ensures_pure.mpr ⟨known.memory, nofun⟩

/-- **On a closed graph a turn keeps to names of nodes.** -/
theorem turn_known (closed : context.graph.Closed) (known : walk.Known context.graph)
    (engine : Engine) :
    Ensures setting (context.turn walk) engine fun turn _ => TurnKnown turn := by
  refine .after fun isStopped _ => ?_
  split
  · exact ensures_pure.mpr ⟨known.memory, nofun⟩
  · split
    · exact ensures_pure.mpr (resume_known closed known _)
    · exact look_known closed known _ _

/-- The turn of a walk whose owner is not there is its last one, and nothing is
remembered of it. -/
theorem turn_unknown_owner (absent : context.graph.find? walk.owner = none)
    (something : walk.candidates ≠ []) (engine : Engine) :
    Ensures setting (context.turn walk) engine fun turn _ =>
      turn.Holds (fun _ => False) fun memory _ => memory = walk.memory := by
  refine .after fun isStopped _ => ?_
  split
  · exact ensures_pure.mpr rfl
  · unfold look
    split
    · exact ensures_pure.mpr rfl
    · rename_i found
      rw [absent] at found
      cases found

/-! ## Runs -/

variable {memory memory' : Memory} {entry : String} {engine final : Engine} {result : RunResult}

/-- On a closed graph, a run from a node ends without having come to an unknown
name, and remembers names of nodes only. -/
theorem run_resolved (closed : context.graph.Closed) (known : memory.Known context.graph)
    (here : context.graph.contains entry = true)
    (ends : (context.run memory entry).Ends setting engine (memory', result) final) :
    memory'.Known context.graph ∧ result.Resolved := by
  obtain ⟨last, before, passes, turned⟩ := run_ends ends
  have reached : last.Known context.graph := by
    refine passes.keeps (fun walk _ => walk.Known context.graph) ?_
      (Walk.known_start known here)
    intro walk engine known
    refine (turn_known closed known engine).imp fun turn _ holds => ?_
    cases turn with
    | finished memory result => trivial
    | next walk' closer => exact holds
  exact turn_known closed reached before _ _ turned

/-- A run from a name that no node has leaves the memory as it was. -/
theorem run_unknown_entry (absent : context.graph.find? entry = none)
    (ends : (context.run memory entry).Ends setting engine (memory', result) final) :
    memory' = memory := by
  have single : ∀ engine, Ensures setting (context.turn (Walk.start memory entry)) engine
      fun turn _ => turn.Holds (fun _ => False) fun memory' _ => memory' = memory :=
    fun engine => turn_unknown_owner absent (List.cons_ne_nil _ _) engine
  obtain ⟨last, before, passes, turned⟩ := run_ends ends
  have reached : last = Walk.start memory entry := by
    refine passes.keeps (fun walk _ => walk = Walk.start memory entry) ?_ rfl
    rintro walk engine rfl
    refine (single engine).imp fun turn _ holds => ?_
    cases turn with
    | finished memory result => trivial
    | next walk' closer => exact holds.elim
  cases reached
  exact single before _ _ turned

/-- What the runs of one interpreter may remember: nothing at first, and then
what the last run has left, from wherever it began. -/
inductive Remembers (context : RunContext) : Memory → Prop where
  | nothing : Remembers context .empty
  | left {memory memory' : Memory} {entry : String} {engine final : Engine} {result : RunResult}
      (before : Remembers context memory)
      (ends : (context.run memory entry).Ends .anything engine (memory', result) final) :
      Remembers context memory'

/-- On a closed graph, runs remember names of nodes only. -/
theorem Remembers.known (closed : context.graph.Closed) (remembers : context.Remembers memory) :
    memory.Known context.graph := by
  induction remembers with
  | nothing => exact Memory.known_empty
  | @left memory memory' entry _ _ _ before ends ih =>
    cases found : context.graph.find? entry with
    | none =>
      rw [run_unknown_entry found ends]
      exact ih
    | some node => exact (run_resolved closed ih (Graph.contains_of_find? found) ends).1

end RunContext

end ScreenPilot
