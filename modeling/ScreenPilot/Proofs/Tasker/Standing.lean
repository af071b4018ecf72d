import ScreenPilot.Proofs.Run.Record
import ScreenPilot.Proofs.Tasker.Conduct

/-!
# Where tasks stand on record

What the record of a task says of its end is its status and whether the end is
stamped with a time (`Cache.standing`). Two steps of the tasker change it: a task
is posted, or it is given another status. All other steps of calls and of runs
leave it alone, and neither ask a task to stop nor unbind anything (`Tasker.Apart`);
so do the other operations of a tasker (`Tasker.Sets.apart`), unless they drop the
records (`Tasker.Spares`).
-/

set_option autoImplicit false

namespace ScreenPilot

open Activity

/-! ## The record of a task -/

namespace Cache

/-- The status of a task on record, and whether its end is stamped. -/
def standing (cache : Cache) (task : TaskId) : Option (TaskStatus × Bool) :=
  (cache.task? task).map fun detail => (detail.status, detail.finished.isSome)

theorem standing_putTask (cache : Cache) (detail : TaskDetail) (task : TaskId) :
    (cache.putTask detail).standing task =
      if detail.id = task then some (detail.status, detail.finished.isSome)
      else cache.standing task := by
  simp only [standing, task?, putTask, Std.ExtTreeMap.getElem?_insert, Std.compare_eq_iff_eq]
  split <;> rfl

/-- A task that is given a status has it, and its end is stamped if it is done. -/
theorem standing_setStatus (cache : Cache) (task other : TaskId) (status : TaskStatus)
    (now : Timestamp) :
    (cache.setStatus task status now).2.standing other =
      if task = other then (cache.standing task).map fun before =>
        (status, status.isDone || before.2)
      else cache.standing other := by
  simp only [standing, setStatus, task?_changeTask]
  split
  · rw [Option.map_map, Option.map_map]
    congr 1
    funext detail
    cases status <;> rfl
  · rfl

theorem standing_pushVisit (cache : Cache) (task other : TaskId) (visit : NodeId) :
    (cache.pushVisit task visit).2.standing other = cache.standing other := by
  simp only [standing, pushVisit, task?_changeTask]
  split
  · rename_i same
    rw [← same, Option.map_map]
    rfl
  · rfl

end Cache

/-! ## Steps of the engine -/

/-- A step of the engine that leaves alone where tasks stand, which are asked to stop,
and how many there are. -/
structure Engine.Leaves (before after : Engine) : Prop where
  task : after.ids.task = before.ids.task
  stopped : after.stopped = before.stopped
  standing : ∀ task, after.cache.standing task = before.cache.standing task

namespace Engine

/-- What leaves the table of tasks alone leaves alone where they stand. -/
theorem leaves_of_tasks {before after : Engine} (task : after.ids.task = before.ids.task)
    (stopped : after.stopped = before.stopped)
    (tasks : after.cache.tasks = before.cache.tasks) : Leaves before after where
  task := task
  stopped := stopped
  standing := by
    intro task
    simp only [Cache.standing, Cache.task?, tasks]

/-- A run leaves alone where tasks stand. -/
theorem leaves_of_runStep {task : TaskId} {before after : Engine} (step : RunStep task before after) :
    Leaves before after := by
  cases step with
  | attempt step => cases step <;> exact leaves_of_tasks rfl rfl rfl
  | drawNode => exact leaves_of_tasks rfl rfl rfl
  | recordNode => exact leaves_of_tasks rfl rfl rfl
  | recordLatest => exact leaves_of_tasks rfl rfl rfl
  | pushVisit visit => exact ⟨rfl, rfl, fun other => Cache.standing_pushVisit _ _ _ _⟩

end Engine

/-! ## Steps of a tasker -/

namespace Tasker

/-- Where a task stands on record. -/
def standing (tasker : Tasker) (task : TaskId) : Option (TaskStatus × Bool) :=
  tasker.engine.cache.standing task

/-- A step aside that asks no task to stop, unbinds nothing and changes no record of a
task, except that it may drop them. -/
structure Spares (before after : Tasker) : Prop where
  aside : before.Aside after
  stopped : after.engine.stopped = before.engine.stopped
  controller : before.controller.isSome → after.controller.isSome
  resource : before.resource.isSome → after.resource.isSome
  standing : ∀ task, after.standing task = before.standing task ∨ after.standing task = none

/-- A step aside that asks no task to stop, unbinds nothing and leaves alone where
tasks stand. -/
structure Apart (before after : Tasker) : Prop extends Spares before after where
  stands : ∀ task, after.standing task = before.standing task
  standing := fun task => .inl (stands task)

theorem Apart.ofEngine {tasker : Tasker} {engine : Engine}
    (leaves : tasker.engine.Leaves engine) : Apart tasker { tasker with engine } where
  aside := .ofEngine leaves.task
  stopped := leaves.stopped
  controller := id
  resource := id
  stands := leaves.standing

theorem Apart.refl (tasker : Tasker) : Apart tasker tasker := .ofEngine ⟨rfl, rfl, fun _ => rfl⟩

theorem Apart.trans {first second third : Tasker} (apart : Apart first second)
    (apart' : Apart second third) : Apart first third where
  aside := apart.aside.trans apart'.aside
  stopped := apart'.stopped.trans apart.stopped
  controller := fun bound => apart'.controller (apart.controller bound)
  resource := fun bound => apart'.resource (apart.resource bound)
  stands := fun task => (apart'.stands task).trans (apart.stands task)

theorem apart_withEngine {α : Type} {activity : Engine.Acting α}
    (steps : activity.Steps Engine.Leaves) : (withEngine activity).Steps Apart :=
  steps.within fun _ _ leaves => .ofEngine leaves

theorem apart_runTask (context : RunContext) (job : TaskJob) :
    (withEngine (runTask context job)).Steps Apart := by
  refine apart_withEngine ?_
  unfold runTask
  split
  · refine .bind (.imp (Engine.steps_walkOn context _) fun _ _ => Engine.leaves_of_runStep) ?_
    intro _
    exact .pure _
  · exact .imp (Engine.steps_recognizeOnce context _) fun _ _ => Engine.leaves_of_runStep
  · exact .imp (Engine.steps_actOnce context _ _) fun _ _ => Engine.leaves_of_runStep
  · exact .pure _

theorem cache_foldl_raiseStop (jobs : List (JobId × TaskJob × JobStatus)) (engine : Engine) :
    (jobs.foldl (fun engine (_, job, _) => engine.raiseStop job.task) engine).cache =
      engine.cache := by
  induction jobs generalizing engine with
  | nil => rfl
  | cons first rest ih => exact ih _

/-- To ask tasks to stop leaves alone where they stand. -/
theorem standing_signalAll (tasker : Tasker) (task : TaskId) :
    tasker.signalAll.standing task = tasker.standing task :=
  congrArg (Cache.standing · task) (cache_foldl_raiseStop _ _)

/-! ## Other operations -/

/-- The operations that bind or replace a part of a tasker, or set whether it publishes
the events of all nodes. -/
inductive Sets : (Tasker → Tasker) → Prop where
  | controller (controller : Handle) : Sets (bindController controller)
  | resource (resource : Handle) : Sets (bindResource resource)
  | recognizer (recognizer : Option Handle) : Sets (setRecognizer recognizer)
  | actuator (actuator : Option Handle) : Sets (setActuator actuator)
  | debugMode (enabled : Bool) : Sets fun tasker => { tasker with
      engine := { tasker.engine with
        notifier := tasker.engine.notifier.setDebugMode enabled } }

theorem Sets.apart {change : Tasker → Tasker} (sets : Sets change) (tasker : Tasker) :
    tasker.Apart (change tasker) := by
  have aside : tasker.Aside (change tasker) := by
    cases sets <;> exact ⟨rfl, rfl, rfl, rfl, rfl⟩
  have stands : ∀ task, (change tasker).standing task = tasker.standing task := by
    cases sets <;> exact fun _ => rfl
  cases sets with
  | controller => exact { aside, stands, stopped := rfl, controller := fun _ => rfl, resource := id }
  | resource => exact { aside, stands, stopped := rfl, controller := id, resource := fun _ => rfl }
  | recognizer => exact { aside, stands, stopped := rfl, controller := id, resource := id }
  | actuator => exact { aside, stands, stopped := rfl, controller := id, resource := id }
  | debugMode => exact { aside, stands, stopped := rfl, controller := id, resource := id }

/-! ## Giving a task a status -/

/-- A task is given a status on record. -/
def record (tasker : Tasker) (task : TaskId) (status : TaskStatus) (now : Timestamp) : Tasker :=
  { tasker with engine := { tasker.engine with
      cache := (tasker.engine.cache.setStatus task status now).2 } }

theorem standing_record (tasker : Tasker) (task other : TaskId) (status : TaskStatus)
    (now : Timestamp) :
    (tasker.record task status now).standing other =
      if task = other then (tasker.standing task).map fun before =>
        (status, status.isDone || before.2)
      else tasker.standing other :=
  Cache.standing_setStatus _ _ _ _ _

theorem aside_record (tasker : Tasker) (task : TaskId) (status : TaskStatus) (now : Timestamp) :
    tasker.Aside (tasker.record task status now) := ⟨rfl, rfl, rfl, rfl, rfl⟩

end Tasker

end ScreenPilot
