import ScreenPilot.Proofs.Run.Steps

/-!
# The visits a task has on record

A run appends each of its visits to its task and keeps what it knows of the
visit under the identity of the visit. As long as others keep both, and no
counter starts again, the visits on record are those the run has made, in their
order (`recordVisit_recorded`); the other steps of a run leave them alone
(`Recorded.frame`).
-/

set_option autoImplicit false

namespace ScreenPilot

namespace Engine

/-- Others keep what is on record: they do not change what is known of a visit,
they leave the visits of the task to its run, and the numbers they draw are new.
The counters of visits and of actions only go up. -/
def keepingRecords (task : TaskId) : Setting Engine where
  others before after :=
    (∀ (visit : NodeId) (detail : NodeDetail), before.cache.node? visit = some detail →
      after.cache.node? visit = some detail) ∧
    (after.cache.task? task).map TaskDetail.visits =
      (before.cache.task? task).map TaskDetail.visits ∧
    before.ids.node ≤ after.ids.node
  own before after := before.ids.node ≤ after.ids.node ∧ before.ids.action ≤ after.ids.action

/-- Others may do nothing, and a step may leave the counters as they are. -/
theorem keepingRecords_rfl (task : TaskId) (engine : Engine) :
    (keepingRecords task).others engine engine ∧ (keepingRecords task).own engine engine :=
  ⟨⟨fun _ _ here => here, rfl, UInt64.le_refl _⟩, UInt64.le_refl _, UInt64.le_refl _⟩

/-- After some earlier visits, a task has made these, and of each it is on record
what happened. -/
structure Recorded (task : TaskId) (earlier : List NodeId) (visits : List NodeDetail)
    (engine : Engine) : Prop where
  listed : (engine.cache.task? task).map TaskDetail.visits =
    some (earlier ++ visits.map NodeDetail.id)
  known : ∀ visit ∈ visits, engine.cache.node? visit.id = some visit
  drawn : ∀ visit ∈ visits, visit.id.number ≤ engine.ids.node

end Engine

/-! ## Tables of the cache -/

namespace Cache

theorem node?_putNode (cache : Cache) (detail : NodeDetail) (visit : NodeId) :
    (cache.putNode detail).node? visit =
      if detail.id = visit then some detail else cache.node? visit := by
  simp only [node?, putNode, Std.ExtTreeMap.getElem?_insert, Std.compare_eq_iff_eq]

/-- A change of the record of one task. -/
theorem task?_changeTask (cache : Cache) (task other : TaskId)
    (change : TaskDetail → TaskDetail) :
    (cache.changeTask task change).2.task? other =
      if task = other then (cache.task? task).map change else cache.task? other := by
  unfold changeTask
  cases found : cache.task? task with
  | none =>
    show cache.task? other = _
    split
    · rename_i same
      rw [← same, found]
      rfl
    · rfl
  | some detail =>
    show (cache.tasks.insert task (change detail))[other]? = _
    simp only [Std.ExtTreeMap.getElem?_insert, Std.compare_eq_iff_eq]
    rfl

/-- A task that is there has one more visit afterwards. -/
theorem visits_pushVisit {cache : Cache} {task : TaskId} {visits : List NodeId}
    (listed : (cache.task? task).map TaskDetail.visits = some visits) (visit : NodeId) :
    ((cache.pushVisit task visit).2.task? task).map TaskDetail.visits =
      some (visits ++ [visit]) := by
  obtain ⟨detail, found, rfl⟩ := Option.map_eq_some_iff.mp listed
  unfold pushVisit changeTask
  rw [found]
  simp only [task?, Std.ExtTreeMap.getElem?_insert_self, Option.map_some, TaskDetail.withVisit]

theorem node?_pushVisit (cache : Cache) (task : TaskId) (visit other : NodeId) :
    (cache.pushVisit task visit).2.node? other = cache.node? other := by
  unfold pushVisit changeTask
  split <;> rfl

end Cache

namespace Engine

open Activity

variable {task : TaskId} {earlier : List NodeId} {visits : List NodeDetail} {engine : Engine}

/-! ## What keeps the record -/

/-- Others keep what is on record. -/
theorem Recorded.among {before after : Engine}
    (recorded : Recorded task earlier visits before)
    (others : (keepingRecords task).others before after) :
    Recorded task earlier visits after where
  listed := others.2.1.trans recorded.listed
  known := fun visit member => others.1 _ _ (recorded.known visit member)
  drawn := fun visit member => UInt64.le_trans (recorded.drawn visit member) others.2.2

/-- A step that looks for candidates or acts leaves the record alone. -/
theorem AttemptStep.record {before after : Engine} (step : AttemptStep before after) :
    after.cache.nodes = before.cache.nodes ∧ after.cache.tasks = before.cache.tasks ∧
      after.ids.node = before.ids.node := by
  cases step <;> exact ⟨rfl, rfl, rfl⟩

theorem Recorded.attempt {before after : Engine}
    (recorded : Recorded task earlier visits before) (step : AttemptStep before after) :
    Recorded task earlier visits after := by
  obtain ⟨nodes, tasks, node⟩ := step.record
  constructor
  · show (after.cache.tasks[task]?).map TaskDetail.visits = _
    rw [tasks]
    exact recorded.listed
  · intro visit member
    show after.cache.nodes[visit.id]? = _
    rw [nodes]
    exact recorded.known visit member
  · rw [node]
    exact recorded.drawn

/-- **Looking for candidates and acting leave the record alone**, and no number
of a visit is drawn again. -/
theorem Recorded.frame {α : Type} {activity : Acting α} (steps : activity.Steps AttemptStep)
    (recorded : Recorded task earlier visits engine) {number : UInt64}
    (drawn : number ≤ engine.ids.node) :
    Ensures (keepingRecords task) activity engine fun _ final =>
      Recorded task earlier visits final ∧ number ≤ final.ids.node := by
  refine steps.ensures
    (fun engine => Recorded task earlier visits engine ∧ number ≤ engine.ids.node)
    ?_ ?_ ⟨recorded, drawn⟩
  · intro before after others held
    exact ⟨held.1.among others, UInt64.le_trans held.2 others.2.2⟩
  · intro before after step _ held
    refine ⟨held.1.attempt step, ?_⟩
    rw [step.record.2.2]
    exact held.2

/-! ## A new visit -/

/-- The number drawn for a visit is new. -/
theorem draw_node_new (recorded : Recorded task earlier visits engine) :
    Ensures (keepingRecords task) (draw .node) engine fun id final =>
      Recorded task earlier visits final ∧ (∀ visit ∈ visits, visit.id ≠ id) ∧
        id.number ≤ final.ids.node := by
  refine ensures_transact.mpr fun found others own => ?_
  have kept := recorded.among others
  have upward : found.ids.node ≤ found.ids.node + 1 := own.1
  refine ⟨⟨kept.listed, kept.known, ?_⟩, ?_, ?_⟩
  · intro visit member
    exact UInt64.le_trans (kept.drawn visit member) upward
  · intro visit member same
    have below : found.ids.node + 1 ≤ found.ids.node := by
      have bound := kept.drawn visit member
      rw [same] at bound
      exact bound
    -- a counter that goes up does not stay where it is
    have equal := UInt64.le_antisymm below upward
    simp at equal
  · show found.ids.node + 1 ≤ found.ids.node + 1
    exact UInt64.le_refl _

/-- **A visit that is recorded comes after those that are on record.** -/
theorem recordVisit_recorded (context : RunContext) {detail : NodeDetail}
    (recorded : Recorded context.task earlier visits engine)
    (isNew : ∀ visit ∈ visits, visit.id ≠ detail.id) (drawn : detail.id.number ≤ engine.ids.node) :
    Ensures (keepingRecords context.task) (context.recordVisit detail) engine fun _ final =>
      Recorded context.task earlier (visits ++ [detail]) final := by
  have known : ∀ {before after : Engine}, (keepingRecords context.task).others before after →
      before.cache.node? detail.id = some detail → after.cache.node? detail.id = some detail :=
    fun others here => others.1 _ _ here
  refine ensures_bind.mpr (ensures_step.mpr fun first others _ => ?_)
  have kept := recorded.among others
  have bound := UInt64.le_trans drawn others.2.2
  have put : Recorded context.task earlier visits
      { first with cache := first.cache.putNode detail } := by
    refine ⟨kept.listed, fun visit member => ?_, kept.drawn⟩
    rw [Cache.node?_putNode, if_neg (isNew visit member).symm]
    exact kept.known visit member
  have here : (first.cache.putNode detail).node? detail.id = some detail := by
    rw [Cache.node?_putNode, if_pos rfl]
  refine ensures_step.mpr fun second others _ => ensures_done.mpr ?_
  have latest : Recorded context.task earlier visits
      { second with cache := second.cache.putLatest detail.name detail.id } :=
    ⟨(put.among others).listed, (put.among others).known, (put.among others).drawn⟩
  replace here := known others here
  replace bound := UInt64.le_trans bound others.2.2
  refine ensures_modify.mpr fun third others _ => ?_
  replace kept := latest.among others
  replace here := others.1 _ _ here
  replace bound := UInt64.le_trans bound others.2.2
  refine ⟨?_, ?_, ?_⟩
  · rw [List.map_append, ← List.append_assoc]
    exact Cache.visits_pushVisit kept.listed _
  · intro visit member
    show (third.cache.pushVisit context.task detail.id).2.node? visit.id = some visit
    rw [Cache.node?_pushVisit]
    rcases List.mem_append.mp member with old | last
    · exact kept.known visit old
    · rw [List.mem_singleton.mp last]
      exact here
  · intro visit member
    rcases List.mem_append.mp member with old | last
    · exact kept.drawn visit old
    · rw [List.mem_singleton.mp last]
      exact bound

end Engine

end ScreenPilot
