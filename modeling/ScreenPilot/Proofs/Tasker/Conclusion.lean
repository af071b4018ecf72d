import ScreenPilot.Proofs.Run.Stopping
import ScreenPilot.Tasker.Execute

/-!
# What becomes of the result of a run

When the run of a task is over, its result becomes the status of the task, the
event that is announced and the outcome of the job (`Tasker.conclude`). So a
task that was asked to stop is on record as stopped, and announced as stopped,
unless its run was overtaken (`RunContext.concluded_or_overtaken`).
-/

set_option autoImplicit false

namespace ScreenPilot

open Activity

namespace Tasker

/-- What carries out a task does with the result of its run. -/
def conclude (job : TaskJob) : RunResult → Tasking (Option JobOutcome)
  | .unfinished => pure none
  | .crashed => do
    withEngine (finishTask job .failed)
    pure (some .failed)
  | .ended outcome => do
    withEngine (finishTask job outcome.status)
    pure (some (jobOutcome outcome))

/-- A task that is not asked to stop before it begins is run, and its result is
concluded. -/
theorem execute_eq (patience : Nat) {job : TaskJob} (isTask : job.kind ≠ .marker) :
    execute patience job = (do
      if ← Activity.reads fun tasker => tasker.engine.stopped.contains job.task then
        withEngine (finishTask job .stopped)
        pure (some .cancelled)
      else
        let controller ← Activity.reads Tasker.controller
        let resource ← Activity.reads Tasker.resource
        match controller, resource with
        | some controller, some resource =>
          startTask patience job controller resource >>= conclude job
        | _, _ => conclude job .crashed) :=
  if_neg isTask

/-- A task is on record as stopped, this is announced, and its job is cancelled. -/
structure ConcludesStopped (job : TaskJob) (before : Tasker) (outcome : Option JobOutcome)
    (after : Tasker) : Prop where
  outcome : ∃ ended, outcome = some ended ∧ (JobStatus.ofOutcome ended).task = .stopped
  engine : ∃ now, after.engine = { before.engine with
    cache := (before.engine.cache.setStatus job.task .stopped now).2
    notifier := before.engine.notifier.emit (.ofTask ⟨.stopped, job.task, job.entry⟩) }

theorem conclude_stopped (job : TaskJob) (tasker : Tasker) :
    Ensures .alone (conclude job (.ended .stopped)) tasker (ConcludesStopped job tasker) := by
  refine ensures_ask.mpr fun now => ensures_step.mpr fun recorded same _ => ?_
  refine ensures_step.mpr fun announced same' _ => ensures_done.mpr ?_
  cases same
  cases same'
  exact ⟨⟨.cancelled, rfl, rfl⟩, now, rfl⟩

end Tasker

namespace RunContext

open Engine

/-- **If a stop is requested when a run is over, its task is concluded as stopped; or
the run was not asked to stop when it began, and a failure of its last round or
action overtook the request.** -/
theorem concluded_or_overtaken {context : RunContext} {memory memory' : Memory} {entry : String}
    {engine final : Engine} {result : RunResult}
    (ends : (context.run memory entry).Ends (heeding context.task) engine (memory', result) final)
    (finished : result ≠ .unfinished) (asked : final.stopped.contains context.task = true) :
    (result = .ended .stopped ∧ ∀ job tasker,
      Ensures .alone (Tasker.conclude job result) tasker (Tasker.ConcludesStopped job tasker)) ∨
    (result ≠ .ended .stopped ∧ engine.stopped.contains context.task = false ∧ ∃ last before,
      context.Passes (heeding context.task) (Walk.start memory entry) engine last before ∧
      context.Overtaken (heeding context.task) last result final) := by
  rcases run_stopped_or_overtaken ends finished asked with
    rfl | ⟨early, last, before, passes, overtaken⟩
  · exact .inl ⟨rfl, Tasker.conclude_stopped⟩
  · exact .inr ⟨overtaken.not_stopped, early, last, before, passes, overtaken⟩

/-- The run that misses its only node is one that is asked to stop in its last round. -/
theorem concluded_or_overtaken_hasty : ∃ final,
    (hasty.run .empty "A").Ends (heeding hasty.task) posted
      (.empty, .ended (.failed (.unhandled .noMatch))) final ∧
    final.stopped.contains hasty.task = true ∧
    posted.stopped.contains hasty.task = false ∧ ∃ last before,
      hasty.Passes (heeding hasty.task) (Walk.start .empty "A") posted last before ∧
      hasty.Overtaken (heeding hasty.task) last (.ended (.failed (.unhandled .noMatch)))
        final := by
  obtain ⟨final, ends, asked⟩ := exists_overtaken
  have ends : (hasty.run .empty "A").Ends (heeding hasty.task) posted _ final := ends
  refine ⟨final, ends, asked, ?_⟩
  rcases concluded_or_overtaken ends nofun asked with ⟨stopped, -⟩ | ⟨-, overtaken⟩
  · cases stopped
  · exact overtaken

/-- A run that is asked to stop may fail. -/
theorem failed_though_asked : ¬ ∀ (context : RunContext) (entry : String) (engine final : Engine)
    (memory : Memory) (result : RunResult),
    (context.run .empty entry).Ends (heeding context.task) engine (memory, result) final →
    final.stopped.contains context.task = true →
      ∀ failure, result ≠ .ended (.failed failure) := by
  intro always
  obtain ⟨final, ends, asked⟩ := exists_overtaken
  exact always hasty "A" posted final _ _ ends asked _ rfl

end RunContext

end ScreenPilot
