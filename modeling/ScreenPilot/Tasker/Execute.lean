import ScreenPilot.Run.Single
import ScreenPilot.Run.Traverse
import ScreenPilot.Tasker.Post

/-!
# Carrying out tasks

The worker takes one job after the other. A task that was asked to stop before
it began only ends; any other is announced, runs on the graph that the resource
has at that moment, and is announced again when its end is in the cache.
-/

set_option autoImplicit false

namespace ScreenPilot

namespace Tasker

open Engine

/-- Records and announces the end of a task. -/
def finishTask (job : TaskJob) (status : TaskStatus) : Acting Unit := do
  setStatus job.task status
  emit (.ofTask ⟨.ofStatus status, job.task, job.entry⟩)

/-- Runs what a task asks for. -/
def runTask (context : RunContext) (job : TaskJob) : Acting RunResult :=
  match job.kind with
  | .pipeline => do return (← context.run .empty job.entry).2
  | .recognition => context.recognizeOnce job.entry
  | .action box => context.actOnce job.entry box
  | .marker => pure (.ended .succeeded)

/-- How the job of a task ended whose run ended so. -/
def jobOutcome : RunOutcome → JobOutcome
  | .succeeded => .succeeded
  | .failed _ => .failed
  | .stopped => .cancelled

/-- The run of a task with the collaborators that are bound. -/
def startTask (patience : Nat) (job : TaskJob) (controller resource : Handle) :
    Tasking RunResult := do
  withEngine (setStatus job.task .running)
  withEngine (emit (.ofTask ⟨.starting, job.task, job.entry⟩))
  let recognizer ← Activity.reads Tasker.recognizer
  let actuator ← Activity.reads Tasker.actuator
  let graph : Graph ← .ask (Question.graph resource) .done
  let poll := (← Activity.reads Tasker.settings).stopPollInterval
  let context : RunContext :=
    { graph := graph.merged job.overrides
      signal := ⟨job.task, poll⟩
      controller
      recognizer := recognizer.elim (.stock resource) .replaced
      actuator := actuator.elim (.stock controller resource) .replaced
      patience }
  withEngine (runTask context job)

/-- Carries out a task. There is no outcome if its run goes on after so many
rounds of a wait. -/
def execute (patience : Nat) (job : TaskJob) : Tasking (Option JobOutcome) := do
  if job.kind = .marker then
    Activity.modify fun tasker => { tasker with stopping := false }
    pure (some .succeeded)
  else if ← Activity.reads fun tasker => tasker.engine.stopped.contains job.task then
    withEngine (finishTask job .stopped)
    pure (some .cancelled)
  else
    let controller ← Activity.reads Tasker.controller
    let resource ← Activity.reads Tasker.resource
    match controller, resource with
    | some controller, some resource =>
      match ← startTask patience job controller resource with
      | .unfinished => pure none
      | .crashed =>
        withEngine (finishTask job .failed)
        pure (some .failed)
      | .ended outcome =>
        withEngine (finishTask job outcome.status)
        pure (some (jobOutcome outcome))
    | _, _ =>
      withEngine (finishTask job .failed)
      pure (some .failed)

/-- Takes the next job and carries it out; whether there was one. -/
def serve (patience : Nat) : Tasking Bool := do
  let next ← Activity.transact fun tasker =>
    (tasker.runner.take.1, { tasker with runner := tasker.runner.take.2 })
  match next with
  | none => pure false
  | some (id, job) =>
    match ← execute patience job with
    | none => pure true
    | some outcome =>
      Activity.modify fun tasker => { tasker with runner := tasker.runner.finish id outcome }
      pure true

end Tasker

end ScreenPilot
