import ScreenPilot.Proofs.Graph.Closed
import ScreenPilot.Proofs.Run.Record
import ScreenPilot.Proofs.Run.Turns

/-!
# How many visits a run records

A run records a visit for each hit and for each list that has missed. Between two lists
that miss, the run completes a node, which takes a hit. So each hit that the graph allows
pays for two visits, and two more are left for the misses at the beginning and at the end
(`run_visits`).
-/

set_option autoImplicit false

namespace ScreenPilot

/-! ## Hits that are left -/

/-- How often the nodes of a graph may be hit that may be looked for at all. -/
def Graph.hitLimit (graph : Graph) : Nat :=
  Memory.total ((graph.toList.filter Node.enabled).map fun node => node.maxHit.toNat)

namespace Memory

variable {graph : Graph} {memory : Memory}

/-- How often a node that may be looked for may still be hit. -/
def chancesOf (memory : Memory) (name : String) (node : Node) : Nat :=
  if node.enabled then node.maxHit.toNat - (memory.hitsOf name).toNat else 0

/-- How often such nodes may still be hit. -/
def chances (graph : Graph) (memory : Memory) : Nat :=
  total (graph.nodes.toList.map fun entry => memory.chancesOf entry.1 entry.2)

/-- A hit uses up a chance. -/
theorem chances_hit_lt (hit : Eligible graph memory) :
    chances graph (memory.hit hit.node) < chances graph memory := by
  have below : (memory.hitsOf hit.node.name).toNat < hit.node.maxHit.toNat :=
    UInt32.lt_iff_toNat_lt.mp hit.below
  have counted := toNat_hitsOf_hit hit
  refine total_map_lt ?_ ⟨(hit.node.name, hit.node), ?_, ?_⟩
  · intro entry _
    unfold chancesOf
    split
    · exact Nat.sub_le_sub_left (toNat_hitsOf_le hit entry.1) _
    · exact Nat.le_refl _
  · exact Std.ExtTreeMap.mem_toList_iff_getElem?_eq_some.mpr hit.found
  · simp only [chancesOf, hit.enabled, if_true, counted]
    omega

/-- At the beginning every hit is left. -/
theorem chances_empty (graph : Graph) : chances graph .empty = graph.hitLimit := by
  rw [chances, Graph.hitLimit, Graph.toList, values_eq_map_toList]
  induction graph.nodes.toList with
  | nil => rfl
  | cons entry entries ih =>
    have first : chancesOf .empty entry.1 entry.2 =
        if entry.2.enabled then entry.2.maxHit.toNat else 0 := by
      simp [chancesOf, hitsOf, empty]
    rw [List.map_cons, List.map_cons, List.filter_cons]
    show chancesOf .empty entry.1 entry.2 + total _ = _
    rw [first, ih]
    split
    · rfl
    · exact Nat.zero_add _

end Memory

/-! ## Visits on record -/

/-- How many visits a task has on record. -/
def Cache.visitCount (task : TaskId) (cache : Cache) : Nat :=
  ((cache.task? task).map TaskDetail.visits).elim 0 List.length

namespace Engine

open Activity

variable {task : TaskId} {setting : Setting Engine} {engine : Engine} {bound : Nat}

/-- Others record no visit of the task. -/
def Spared (task : TaskId) (setting : Setting Engine) : Prop :=
  ∀ before after, setting.others before after →
    after.cache.visitCount task ≤ before.cache.visitCount task

/-- What looks for candidates or acts records no visit. -/
theorem Spared.attempt (spared : Spared task setting) {α : Type} {activity : Acting α}
    (steps : activity.Steps AttemptStep) (few : engine.cache.visitCount task ≤ bound) :
    Ensures setting activity engine fun _ final => final.cache.visitCount task ≤ bound := by
  refine steps.ensures (fun engine => engine.cache.visitCount task ≤ bound) ?_ ?_ few
  · exact fun before after others few => Nat.le_trans (spared before after others) few
  · intro before after step _ few
    have tasks := step.record.2.1
    rw [Cache.visitCount, Cache.task?, tasks]
    exact few

theorem visitCount_pushVisit (cache : Cache) (visit : NodeId) :
    (cache.pushVisit task visit).2.visitCount task ≤ cache.visitCount task + 1 := by
  cases listed : (cache.task? task).map TaskDetail.visits with
  | none =>
    have absent := Option.map_eq_none_iff.mp listed
    unfold Cache.pushVisit Cache.changeTask
    rw [absent]
    exact Nat.le_succ _
  | some visits =>
    rw [Cache.visitCount, Cache.visits_pushVisit listed, Cache.visitCount, listed]
    exact Nat.le_of_eq List.length_append

theorem Spared.draw (spared : Spared task setting) (few : engine.cache.visitCount task ≤ bound) :
    Ensures setting (draw .node) engine fun _ final => final.cache.visitCount task ≤ bound :=
  ensures_transact.mpr fun found others _ => Nat.le_trans (spared _ found others) few

/-- A visit that is recorded is one more. -/
theorem Spared.record {context : RunContext} (spared : Spared context.task setting)
    (detail : NodeDetail) (few : engine.cache.visitCount context.task ≤ bound) :
    Ensures setting (context.recordVisit detail) engine fun _ final =>
      final.cache.visitCount context.task ≤ bound + 1 := by
  refine ensures_bind.mpr (ensures_step.mpr fun first others _ => ?_)
  have few := Nat.le_trans (spared _ first others) few
  refine ensures_step.mpr fun second others _ => ensures_done.mpr ?_
  have few : second.cache.visitCount context.task ≤ bound :=
    Nat.le_trans (spared _ second others) few
  refine ensures_modify.mpr fun third others _ => ?_
  have few : third.cache.visitCount context.task ≤ bound :=
    Nat.le_trans (spared _ third others) few
  exact Nat.le_trans (visitCount_pushVisit _ _) (Nat.add_le_add_right few 1)

end Engine

/-! ## Turns -/

/-- How many visits a walk may still record. -/
def Walk.allowance (graph : Graph) (walk : Walk) : Nat :=
  2 * walk.memory.chances graph + if walk.recovering then 1 else 2

/-- A turn that began with so many visits left keeps within them. -/
def Turn.Within {graph : Graph} {walk : Walk} (task : TaskId) (bound : Nat)
    (turn : Turn graph walk) (engine : Engine) : Prop :=
  turn.Holds (fun walk' => engine.cache.visitCount task + walk'.allowance graph ≤ bound)
    fun _ _ => engine.cache.visitCount task ≤ bound

namespace RunContext

open Activity Engine

variable {context : RunContext} {setting : Setting Engine} {walk : Walk} {engine : Engine}
  {bound : Nat}

theorem resume_within (nothing : walk.candidates = [])
    (few : engine.cache.visitCount context.task + walk.allowance context.graph ≤ bound) :
    (context.resume walk nothing).Within context.task bound engine := by
  unfold resume
  split
  · exact Nat.le_trans (Nat.le_add_right _ _) few
  · split
    · exact Nat.le_trans (Nat.le_add_right _ _) few
    · exact few

/-- There is always one visit left. -/
theorem allowance_pos : 2 * walk.memory.chances context.graph + 1 ≤
    walk.allowance context.graph := by
  unfold Walk.allowance
  split <;> omega

theorem afterMiss_within (spared : Spared context.task setting) (owner : Node)
    (last : Option (String × RecoId))
    (few : engine.cache.visitCount context.task + walk.allowance context.graph ≤ bound) :
    Ensures setting (context.afterMiss walk owner last) engine fun turn final =>
      turn.Within context.task bound final := by
  have room : 2 * walk.memory.chances context.graph + 1 ≤ walk.allowance context.graph :=
    allowance_pos
  have before : engine.cache.visitCount context.task ≤ bound - walk.allowance context.graph := by
    omega
  refine ensures_bind.mpr ((spared.draw before).imp fun visit _ drawn => ?_)
  refine ensures_bind.mpr ((spared.record _ drawn).imp fun _ final recorded => ?_)
  have still : final.cache.visitCount context.task ≤ bound := by omega
  split
  · rename_i calm
    split
    · exact ensures_pure.mpr still
    · -- two visits were left for misses, and one of them is now used
      have all : walk.allowance context.graph = 2 * walk.memory.chances context.graph + 2 := by
        rw [Walk.allowance, calm]
        rfl
      refine ensures_pure.mpr ?_
      show final.cache.visitCount context.task + (2 * walk.memory.chances context.graph + 1) ≤ bound
      omega
  · exact ensures_pure.mpr still

theorem chances_memoryAfterHit (walk : Walk) (position : Nat)
    (hit : Memory.Eligible context.graph walk.memory) :
    (memoryAfterHit walk position hit.node).chances context.graph <
      walk.memory.chances context.graph := by
  unfold memoryAfterHit
  simp only []
  split
  · exact Memory.chances_hit_lt hit
  · exact Memory.chances_hit_lt hit

theorem afterHit_within (spared : Spared context.task setting) (position : Nat)
    (hit : Memory.Eligible context.graph walk.memory) (reco : RecoResult)
    (few : engine.cache.visitCount context.task + walk.allowance context.graph ≤ bound) :
    Ensures setting (context.afterHit walk position hit reco) engine fun turn final =>
      turn.Within context.task bound final := by
  have room : 2 * walk.memory.chances context.graph + 1 ≤ walk.allowance context.graph :=
    allowance_pos
  have fewer := chances_memoryAfterHit walk position hit
  have before : engine.cache.visitCount context.task ≤ bound - walk.allowance context.graph := by
    omega
  refine ensures_bind.mpr ((spared.draw before).imp fun visit _ drawn => ?_)
  refine ensures_bind.mpr ((spared.attempt (steps_act _ _ _ _) drawn).imp ?_)
  intro acted middle acts
  split
  · refine ensures_pure.mpr ?_
    show middle.cache.visitCount context.task ≤ bound
    omega
  · refine ensures_bind.mpr ((spared.record _ acts).imp fun _ final recorded => ?_)
    refine ensures_pure.mpr ?_
    show final.cache.visitCount context.task ≤ bound
    omega
  · refine ensures_bind.mpr ((spared.record _ acts).imp fun _ final recorded => ?_)
    have still : final.cache.visitCount context.task ≤ bound := by omega
    split
    · refine ensures_pure.mpr ?_
      show final.cache.visitCount context.task +
        (2 * (memoryAfterHit walk position hit.node).chances context.graph + 2) ≤ bound
      omega
    · split
      · exact ensures_pure.mpr still
      · split
        · exact ensures_pure.mpr still
        · refine ensures_pure.mpr ?_
          show final.cache.visitCount context.task +
            (2 * (memoryAfterHit walk position hit.node).chances context.graph + 1) ≤ bound
          omega

/-- **Every turn keeps within the visits that are left.** -/
theorem turn_within (spared : Spared context.task setting)
    (few : engine.cache.visitCount context.task + walk.allowance context.graph ≤ bound) :
    Ensures setting (context.turn walk) engine fun turn final =>
      turn.Within context.task bound final := by
  have before : engine.cache.visitCount context.task ≤ bound - walk.allowance context.graph := by
    omega
  refine ensures_bind.mpr ((spared.attempt (steps_reads _) before).imp ?_)
  intro stopped middle looks
  have few : middle.cache.visitCount context.task + walk.allowance context.graph ≤ bound := by
    omega
  have still : middle.cache.visitCount context.task ≤ bound := by omega
  split
  · exact ensures_pure.mpr still
  · split
    · exact ensures_pure.mpr (resume_within _ few)
    · rename_i something
      cases found : context.graph.find? walk.owner with
      | none =>
        rw [look_of_absent _ _ found]
        exact ensures_pure.mpr still
      | some owner =>
        rw [look_of_found _ _ found]
        refine ensures_bind.mpr ((spared.attempt (steps_scan _ _ _ _ _) looks).imp ?_)
        intro scan final scans
        have few : final.cache.visitCount context.task + walk.allowance context.graph ≤ bound := by
          omega
        cases scan with
        | hit position node reco => exact afterHit_within spared position node reco few
        | missed last => exact afterMiss_within spared owner last few
        | exhausted => exact ensures_pure.mpr few
        | stopped | unknown | crashed | unfinished =>
          exact ensures_pure.mpr (Nat.le_trans (Nat.le_add_right _ _) few)

/-- **A run records at most two visits for each hit that is left, and two more.** -/
theorem run_visits (spared : Spared context.task setting) {memory memory' : Memory}
    {entry : String} {final : Engine} {result : RunResult}
    (ends : (context.run memory entry).Ends setting engine (memory', result) final) :
    final.cache.visitCount context.task ≤
      engine.cache.visitCount context.task + 2 * memory.chances context.graph + 2 := by
  obtain ⟨last, before, passes, turned⟩ := run_ends ends
  have kept := passes.keeps (fun walk engine' => engine'.cache.visitCount context.task +
      walk.allowance context.graph ≤
        engine.cache.visitCount context.task + 2 * memory.chances context.graph + 2) ?_ ?_
  · exact turn_within spared kept _ _ turned
  · intro walk engine few
    refine (turn_within spared few).imp fun turn final within => ?_
    cases turn with
    | finished => trivial
    | next => exact within
  · exact Nat.le_refl _

end RunContext

end ScreenPilot
