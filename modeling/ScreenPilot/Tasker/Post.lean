import ScreenPilot.Tasker.Basic

/-!
# Posting tasks

A task is accepted if a loaded resource and a connected controller are bound,
its overrides can be read, and no request to stop is being carried out. A task
that is not accepted leaves no trace.

Whether a request to stop is being carried out is looked at in the same step
that puts the task into the queue. So every task is either in the queue before
a request to stop begins, or turned down by it.
-/

set_option autoImplicit false

namespace ScreenPilot

namespace Tasker

open Engine

/-! ## Acceptance -/

/-- Whether a loaded resource and a connected controller are bound. -/
def checkReady : Tasking (Outcome Unit) := do
  match ← Activity.reads Tasker.resource with
  | none => pure (.error .notInitialized)
  | some resource =>
    let isLoaded : Bool ← .ask (Question.isLoaded resource) .done
    if ¬ isLoaded then pure (.error .notInitialized)
    else
      match ← Activity.reads Tasker.controller with
      | none => pure (.error .notInitialized)
      | some controller =>
        let isConnected : Bool ← .ask (Question.isConnected controller) .done
        if isConnected then pure (.ok ()) else pure (.error (.controller "not connected"))

/-- The graph of overrides; null stands for none. -/
def readOverrides (defaults : NodeDefaults) : Json → Outcome Graph
  | .null => .ok .empty
  | document =>
    match Graph.ofJson defaults document with
    | .ok graph => .ok graph
    | .error error => .error (.within "Invalid pipeline override" error)

/-- Puts a job into the queue and keeps which task it carries out. -/
def enqueue (job : TaskJob) (tasker : Tasker) : Tasker :=
  let (id, runner) := tasker.runner.post job
  { tasker with
    runner
    jobs := tasker.jobs.insert job.task id
    tasks := tasker.tasks.insert id job.task }

/-- Draws the next identity of a task. -/
def drawTask (tasker : Tasker) : TaskId × Tasker :=
  let (task, ids) := tasker.engine.ids.draw .task
  (task, { tasker with engine := { tasker.engine with ids } })

/-- Puts a task into the queue, unless a request to stop is being carried out. -/
def accept (entry : String) (kind : TaskKind) (overrides : Graph) (now : Timestamp)
    (tasker : Tasker) : Outcome TaskId × Tasker :=
  if tasker.stopping then (.error .stopping, tasker)
  else
    let (task, tasker) := tasker.drawTask
    let engine :=
      { tasker.engine with cache := tasker.engine.cache.putTask (.posted task entry now) }
    (.ok task, { tasker with engine }.enqueue { task, entry, kind, overrides })

/-- Posts a task, or says why it is not accepted. -/
def tryPost (entry : String) (overrides : Json) (kind : TaskKind) : Tasking (Outcome TaskId) := do
  match ← checkReady with
  | .error error => pure (.error error)
  | .ok () =>
    match readOverrides (← Activity.reads Tasker.defaults) overrides with
    | .error error => pure (.error error)
    | .ok overrides =>
      let now ← withEngine date
      Activity.transact (accept entry kind overrides now)

/-- Posts a task; the identity is invalid if it is not accepted. -/
def post (entry : String) (overrides : Json) (kind : TaskKind) : Tasking TaskId := do
  match ← tryPost entry overrides kind with
  | .ok task => pure task
  | .error _ => pure .invalid

/-! ## Stopping -/

/-- Asks every task that runs or is to run to stop. -/
def signalAll (tasker : Tasker) : Tasker :=
  { tasker with
    engine := tasker.runner.jobs.foldl (fun engine (_, job, _) => engine.raiseStop job.task)
      tasker.engine }

/-- Tells the controller and the resource to give up what takes long. -/
def haltOutside : Tasking Unit := do
  match ← Activity.reads Tasker.controller with
  | none => pure ()
  | some controller => .ask (Question.haltController controller) .done
  match ← Activity.reads Tasker.resource with
  | none => pure ()
  | some resource => .ask (Question.haltResource resource) .done

/-- Gives a task another status in the cache. -/
def setStatus (task : TaskId) (status : TaskStatus) : Acting Unit := do
  let now ← date
  modifyCache fun cache => (cache.setStatus task status now).2

/-- Gives the tasks of dropped jobs the status of stopped ones. -/
def stopDropped (tasks : Std.ExtTreeMap JobId TaskId) : List JobId → Tasking Unit
  | [] => pure ()
  | job :: dropped => do
    match tasks[job]? with
    | none => pure ()
    | some task => withEngine (setStatus task .stopped)
    stopDropped tasks dropped

/-- Puts the marker of a request to stop into the queue. -/
def enqueueMarker (tasker : Tasker) (task : TaskId) : Tasker :=
  tasker.enqueue { task, entry := "", kind := .marker, overrides := .empty }

/-- Stops the task that runs and drops those that are queued. Nothing is
accepted until the marker, whose identity is returned, has been reached. -/
def postStop : Tasking TaskId := do
  Activity.modify fun tasker => { tasker with stopping := true }
  Activity.modify signalAll
  haltOutside
  let dropped ← Activity.transact fun tasker =>
    (tasker.runner.clear.1, { tasker with runner := tasker.runner.clear.2 })
  stopDropped (← Activity.reads Tasker.tasks) dropped
  let marker ← Activity.transact drawTask
  Activity.modify fun tasker => tasker.enqueueMarker marker
  pure marker

end Tasker

end ScreenPilot
