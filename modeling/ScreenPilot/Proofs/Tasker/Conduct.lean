import ScreenPilot.Proofs.Run.Steps
import ScreenPilot.Proofs.Runner.Order
import ScreenPilot.Proofs.Tasker.Session
import Std.Data.ExtTreeSet.Lemmas

/-!
# What calls and the worker do

A call that posts only looks, until it decides in one step (`tryPost_decides`).
A call that stops goes through the phases of a `StopPhase`, and the worker holds
a job from when it takes it to when it has ended (`WorkPhase`). All their other
steps are aside from the queue.
-/

set_option autoImplicit false

namespace ScreenPilot

open Activity

namespace Tasker

/-! ## Steps aside -/

theorem Aside.refl (tasker : Tasker) : Aside tasker tasker := ⟨rfl, rfl, rfl, rfl, rfl⟩

theorem Aside.trans {first second third : Tasker} (aside : Aside first second)
    (aside' : Aside second third) : Aside first third where
  stopping := aside'.stopping.trans aside.stopping
  runner := aside'.runner.trans aside.runner
  jobs := aside'.jobs.trans aside.jobs
  tasks := aside'.tasks.trans aside.tasks
  task := aside'.task.trans aside.task

/-- A step of the engine that gives out no identity of a task. -/
def KeepsTask (before after : Engine) : Prop := after.ids.task = before.ids.task

theorem Aside.ofEngine {tasker : Tasker} {engine : Engine}
    (keeps : KeepsTask tasker.engine engine) : Aside tasker { tasker with engine } :=
  ⟨rfl, rfl, rfl, rfl, keeps⟩

theorem steps_withEngine {α : Type} {activity : Engine.Acting α}
    (steps : activity.Steps KeepsTask) : (withEngine activity).Steps Aside :=
  steps.within fun _ _ keeps => .ofEngine keeps

theorem steps_reads {α : Type} (part : Tasker → α) : (reads part : Tasking α).Steps Aside :=
  .reads Aside.refl

/-- A run gives out no identity of a task. -/
theorem keepsTask_of_runStep {task : TaskId} {before after : Engine}
    (step : Engine.RunStep task before after) : KeepsTask before after := by
  cases step with
  | attempt step => cases step <;> rfl
  | drawNode => rfl
  | recordNode => rfl
  | recordLatest => rfl
  | pushVisit => rfl

theorem steps_runTask (context : RunContext) (job : TaskJob) :
    (runTask context job).Steps KeepsTask := by
  unfold runTask
  split
  · refine .bind (.imp (Engine.steps_walkOn context _) fun _ _ => keepsTask_of_runStep) ?_
    intro _
    exact .pure _
  · exact .imp (Engine.steps_recognizeOnce context _) fun _ _ => keepsTask_of_runStep
  · exact .imp (Engine.steps_actOnce context _ _) fun _ _ => keepsTask_of_runStep
  · exact .pure _

theorem steps_setStatus (task : TaskId) (status : TaskStatus) :
    (setStatus task status).Steps KeepsTask :=
  .bind (fun _ => trivial) fun _ => .modify fun _ => rfl

theorem steps_emit (event : Notification) : (Engine.emit event).Steps KeepsTask :=
  .modify fun _ => rfl

theorem steps_finishTask (job : TaskJob) (status : TaskStatus) :
    (finishTask job status).Steps KeepsTask :=
  .bind (steps_setStatus _ _) fun _ => steps_emit _

theorem steps_startTask (patience : Nat) (job : TaskJob) (controller resource : Handle) :
    (startTask patience job controller resource).Steps Aside := by
  refine .bind (steps_withEngine (steps_setStatus _ _)) fun _ => ?_
  refine .bind (steps_withEngine (steps_emit _)) fun _ => ?_
  refine .bind (steps_reads _) fun recognizer => .bind (steps_reads _) fun actuator => ?_
  refine .bind (fun _ => trivial) fun graph => .bind (steps_reads _) fun settings => ?_
  exact steps_withEngine (steps_runTask _ _)

/-! ## Posting -/

/-- The step in which a call decides whether its task is accepted. -/
def decision (entry : String) (kind : TaskKind) (overrides : Graph) (now : Timestamp) :
    Tasking (Outcome TaskId) :=
  Activity.transact (accept entry kind overrides now)

/-- What a task may lack for which a call that posts ends before it decides. -/
inductive Lacks : EngineError → Prop where
  | notInitialized : Lacks .notInitialized
  | controller (reason : String) : Lacks (.controller reason)
  | overrides (error : EngineError) : Lacks (.within "Invalid pipeline override" error)

/-- What is left of a call that posts only looks, until it decides, unless it ends
before for what the task lacks. -/
def Decides : Tasking (Outcome TaskId) → Prop
  | .done outcome => ∃ error, Lacks error ∧ outcome = .error error
  | .step change next =>
    (∀ tasker, change tasker = tasker ∧ Decides (next tasker)) ∨
    ∃ entry kind overrides now, kind ≠ .marker ∧
      .step change next = decision entry kind overrides now
  | .ask _ next => ∀ answer, Decides (next answer)

/-- Overrides that cannot be read say so. -/
theorem lacks_of_readOverrides {defaults : NodeDefaults} {overrides : Json} {error : EngineError}
    (unread : readOverrides defaults overrides = .error error) : Lacks error := by
  unfold readOverrides at unread
  split at unread
  · cases unread
  · split at unread
    · cases unread
    · cases unread
      exact .overrides _

/-- A step that only looks. -/
def Looks (_ : Unit) (before after : Tasker) (_ : Unit) : Prop := before = after

theorem Decides.bind {α : Type} {good : α → Prop} {first : Tasking α}
    {next : α → Tasking (Outcome TaskId)} (looks : first.Obeys Looks (fun _ => good) ())
    (decides : ∀ value, good value → Decides (next value)) : Decides (first >>= next) := by
  show Decides (first.bind next)
  induction first with
  | done value => exact decides value looks
  | step change rest ih =>
    refine .inl fun tasker => ?_
    obtain ⟨_, same, looks⟩ := looks tasker
    exact ⟨same.symm, ih tasker looks⟩
  | ask question rest ih => exact fun answer => ih answer (looks.2 answer)

/-- To look at a part of the state first is to look as well. -/
theorem looks_reads {α β : Type} {part : Tasker → α} {next : α → Tasking β} {good : β → Prop}
    (looks : ∀ value, (next value).Obeys Looks (fun _ => good) ()) :
    (reads part >>= next).Obeys Looks (fun _ => good) () :=
  fun tasker => ⟨(), rfl, looks (part tasker)⟩

theorem checkReady_looks : checkReady.Obeys Looks
    (fun _ ready => ready = .ok () ∨ ∃ error, Lacks error ∧ ready = .error error) () := by
  have lacks : ∀ error : EngineError, Lacks error → (.error error : Outcome Unit) = .ok () ∨
      ∃ error', Lacks error' ∧ (.error error : Outcome Unit) = .error error' :=
    fun error lacks => .inr ⟨error, lacks, rfl⟩
  refine looks_reads fun resource => ?_
  cases resource with
  | none => exact lacks _ .notInitialized
  | some resource =>
    refine ⟨fun _ => rfl, fun isLoaded => ?_⟩
    cases isLoaded with
    | false => exact lacks _ .notInitialized
    | true =>
      refine looks_reads fun controller => ?_
      cases controller with
      | none => exact lacks _ .notInitialized
      | some controller =>
        refine ⟨fun _ => rfl, fun isConnected => ?_⟩
        cases isConnected with
        | false => exact lacks _ (.controller _)
        | true => exact .inl rfl

/-- **A call that posts changes nothing until it decides.** -/
theorem tryPost_decides (entry : String) (overrides : Json) {kind : TaskKind}
    (isTask : kind ≠ .marker) : Decides (tryPost entry overrides kind) := by
  refine .bind checkReady_looks fun ready isReady => ?_
  rcases isReady with rfl | ⟨error, lacks, rfl⟩
  · refine .inl fun tasker => ⟨rfl, ?_⟩
    simp only [Activity.bind]
    cases read : readOverrides tasker.defaults overrides with
    | error error => exact ⟨error, lacks_of_readOverrides read, rfl⟩
    | ok overrides => exact fun now => .inr ⟨entry, kind, overrides, now, isTask, rfl⟩
  · exact ⟨error, lacks, rfl⟩

/-! ## Putting jobs into the queue -/

/-- A job is put into the queue. -/
structure Enqueues (job : TaskJob) (before after : Tasker) : Prop where
  runner : after.runner = (before.runner.post job).2
  jobs : after.jobs = before.jobs.insert job.task ⟨before.runner.lastId + 1⟩
  stopping : after.stopping = before.stopping

/-- A tasker that is stopping turns a task down and stays as it is. -/
theorem accept_of_stopping {tasker : Tasker} (stopping : tasker.stopping = true) (entry : String)
    (kind : TaskKind) (overrides : Graph) (now : Timestamp) :
    tasker.accept entry kind overrides now = (.error .stopping, tasker) := by
  unfold accept
  rw [if_pos stopping]

/-- A tasker that is not stopping accepts a task under the next identity. -/
theorem accept_enqueues {tasker : Tasker} (going : tasker.stopping = false) (entry : String)
    (kind : TaskKind) (overrides : Graph) (now : Timestamp) :
    ∃ job : TaskJob, job.kind = kind ∧ job.task.number = tasker.engine.ids.task + 1 ∧
      (tasker.accept entry kind overrides now).1 = .ok job.task ∧
      (tasker.accept entry kind overrides now).2.engine.ids.task = tasker.engine.ids.task + 1 ∧
      Enqueues job tasker (tasker.accept entry kind overrides now).2 := by
  unfold accept
  rw [going, if_neg Bool.false_ne_true]
  exact ⟨⟨tasker.drawTask.1, entry, kind, overrides⟩, rfl, rfl, rfl, rfl, rfl, rfl, rfl⟩

theorem enqueueMarker_enqueues (tasker : Tasker) (marker : TaskId) :
    Enqueues ⟨marker, "", .marker, .empty⟩ tasker (tasker.enqueueMarker marker) :=
  ⟨rfl, rfl, rfl⟩

end Tasker

/-! ## Stopping -/

/-- How far a call that stops has come. Calls of other operations are `other`. -/
inductive StopPhase where
  | other
  | called
  /-- Nothing is accepted from here on. -/
  | raised
  /-- What was queued has been dropped. -/
  | cleared
  | drawn (marker : TaskId)
  /-- The marker has been put into the queue. -/
  | marked (marker : TaskId)

namespace StopPhase

/-- The steps of a call that stops. -/
inductive Go : StopPhase → Tasker → Tasker → StopPhase → Prop where
  | aside {phase : StopPhase} {before after : Tasker} (ongoing : ∀ marker, phase ≠ .marked marker)
      (aside : before.Aside after) : Go phase before after phase
  | raise (tasker : Tasker) : Go .called tasker { tasker with stopping := true } .raised
  | clear (tasker : Tasker) :
      Go .raised tasker { tasker with runner := tasker.runner.clear.2 } .cleared
  | draw (tasker : Tasker) :
      Go .cleared tasker tasker.drawTask.2 (.drawn tasker.drawTask.1)
  | mark (tasker : Tasker) (marker : TaskId) :
      Go (.drawn marker) tasker (tasker.enqueueMarker marker) (.marked marker)

/-- A call that stops ends with its marker in the queue. -/
def Over (phase : StopPhase) (marker : TaskId) : Prop := phase = .marked marker

/-- Once the marker is in the queue, the call is over. -/
theorem eq_done_of_marked {rest : Tasker.Tasking TaskId} {marker : TaskId}
    (obeys : rest.Obeys Go Over (.marked marker)) : rest = .done marker := by
  cases rest with
  | done value =>
    cases (obeys : StopPhase.marked marker = .marked value)
    rfl
  | step change next =>
    obtain ⟨phase, allowed, -⟩ := obeys default
    cases allowed with
    | aside ongoing => exact absurd rfl (ongoing marker)
  | ask question next =>
    cases obeys.1 default with
    | aside ongoing => exact absurd rfl (ongoing marker)

end StopPhase

namespace Tasker

theorem ids_foldl_raiseStop (jobs : List (JobId × TaskJob × JobStatus)) (engine : Engine) :
    (jobs.foldl (fun engine (_, job, _) => engine.raiseStop job.task) engine).ids =
      engine.ids := by
  induction jobs generalizing engine with
  | nil => rfl
  | cons first rest ih => exact ih _

theorem aside_signalAll (tasker : Tasker) : Aside tasker tasker.signalAll :=
  .ofEngine (congrArg IdSource.task (ids_foldl_raiseStop _ _))

/-- To tell the outside to give up what takes long only looks at the tasker. -/
theorem steps_haltOutside {kind : Tasker → Tasker → Prop}
    (look : ∀ tasker, kind tasker tasker) : haltOutside.Steps kind := by
  refine .bind (.reads look) fun controller => ?_
  cases controller with
  | none =>
    refine .bind (.reads look) fun resource => ?_
    cases resource with
    | none => exact .pure _
    | some resource => exact fun _ => trivial
  | some controller =>
    refine .bind (fun _ => trivial) fun _ => .bind (.reads look) fun resource => ?_
    cases resource with
    | none => exact .pure _
    | some resource => exact fun _ => trivial

/-- To put dropped tasks on record is to put one after the other on record as stopped. -/
theorem steps_stopDropped {kind : Tasker → Tasker → Prop}
    (records : ∀ task, (withEngine (setStatus task .stopped)).Steps kind)
    (tasks : Std.ExtTreeMap JobId TaskId) (dropped : List JobId) :
    (stopDropped tasks dropped).Steps kind := by
  induction dropped with
  | nil => exact .pure _
  | cons job dropped ih =>
    unfold stopDropped
    split
    · exact ih
    · exact .bind (records _) fun _ => ih

theorem aside_stopDropped (tasks : Std.ExtTreeMap JobId TaskId) (dropped : List JobId) :
    (stopDropped tasks dropped).Steps Aside :=
  steps_stopDropped (fun _ => steps_withEngine (steps_setStatus _ _)) tasks dropped

/-- **A call that stops goes through its phases, one after the other.** -/
theorem postStop_obeys : postStop.Obeys StopPhase.Go StopPhase.Over .called := by
  have ahead : ∀ {phase : StopPhase}, (∀ marker, phase ≠ .marked marker) →
      ∀ before after, Aside before after → StopPhase.Go phase before after phase :=
    fun ongoing before after aside => .aside ongoing aside
  have waits : ∀ {phase : StopPhase}, (∀ marker, phase ≠ .marked marker) →
      ∀ tasker, StopPhase.Go phase tasker tasker phase :=
    fun ongoing tasker => .aside ongoing (.refl tasker)
  refine fun tasker => ⟨.raised, .raise tasker, ?_⟩
  refine fun tasker => ⟨.raised, .aside nofun (aside_signalAll tasker), ?_⟩
  refine (steps_haltOutside Aside.refl).obeys_bind (ahead nofun) (waits nofun) fun _ => ?_
  refine fun tasker => ⟨.cleared, .clear tasker, ?_⟩
  refine fun tasker => ⟨.cleared, .aside nofun (.refl tasker), ?_⟩
  refine (aside_stopDropped _ _).obeys_bind (ahead nofun) (waits nofun) fun _ => ?_
  refine fun tasker => ⟨.drawn tasker.drawTask.1, .draw tasker, ?_⟩
  intro other
  exact ⟨.marked _, .mark other _, rfl⟩

end Tasker

/-! ## Working -/

/-- What the worker has in hand. -/
inductive WorkPhase where
  | free
  | holding (id : JobId) (job : TaskJob)

namespace WorkPhase

/-- The job in hand. -/
def held : WorkPhase → Option (JobId × TaskJob)
  | .free => none
  | .holding id job => some (id, job)

/-- The steps of the worker. -/
inductive Go : WorkPhase → Tasker → Tasker → WorkPhase → Prop where
  | aside {phase : WorkPhase} {before after : Tasker} (aside : before.Aside after) :
      Go phase before after phase
  | take {tasker : Tasker} {id : JobId} {job : TaskJob}
      (taken : tasker.runner.take.1 = some (id, job)) :
      Go .free tasker { tasker with runner := tasker.runner.take.2 } (.holding id job)
  /-- The marker of a request to stop is reached. -/
  | reach {tasker : Tasker} {id : JobId} {job : TaskJob} (isMarker : job.kind = .marker) :
      Go (.holding id job) tasker { tasker with stopping := false } (.holding id job)
  /-- A job ends; that of a marker is not cancelled in this way. -/
  | finish {tasker : Tasker} {id : JobId} {job : TaskJob} {outcome : JobOutcome}
      (notCancelled : job.kind = .marker → outcome ≠ .cancelled) :
      Go (.holding id job) tasker { tasker with runner := tasker.runner.finish id outcome } .free

/-- The worker's turn may end at any time. -/
def Over (_ : WorkPhase) (_ : Bool) : Prop := True

end WorkPhase

namespace Tasker

/-- While a job is carried out, the worker holds it. It lets posts pass again if
the job is a marker, and this is then not cancelled. -/
theorem execute_obeys (patience : Nat) (id : JobId) (job : TaskJob) :
    (execute patience job).Obeys WorkPhase.Go
      (fun phase outcome => phase = .holding id job ∧
        (job.kind = .marker → outcome ≠ some .cancelled)) (.holding id job) := by
  unfold execute
  split
  · rename_i isMarker
    intro tasker
    refine ⟨_, .reach isMarker, rfl, fun _ cancelled => ?_⟩
    cases cancelled
  · rename_i isTask
    have done : ∀ outcome, WorkPhase.holding id job = .holding id job ∧
        (job.kind = .marker → outcome ≠ some JobOutcome.cancelled) :=
      fun outcome => ⟨rfl, fun isMarker => absurd isMarker isTask⟩
    have ends : ∀ (status : TaskStatus) (outcome : JobOutcome),
        (do withEngine (finishTask job status); pure (some outcome) :
          Tasking (Option JobOutcome)).Obeys WorkPhase.Go
          (fun phase outcome => phase = .holding id job ∧
            (job.kind = .marker → outcome ≠ some .cancelled)) (.holding id job) :=
      fun status outcome => (steps_withEngine (steps_finishTask job status)).obeys_bind
        (fun _ _ => .aside) (fun tasker => .aside (.refl tasker)) fun _ => done _
    refine (steps_reads _).obeys_bind (fun _ _ => .aside) (fun tasker => .aside (.refl tasker))
      fun isStopped => ?_
    split
    · exact ends _ _
    · refine (steps_reads _).obeys_bind (fun _ _ => .aside) (fun tasker => .aside (.refl tasker))
        fun controller => ?_
      refine (steps_reads _).obeys_bind (fun _ _ => .aside) (fun tasker => .aside (.refl tasker))
        fun resource => ?_
      split
      · refine (steps_startTask _ _ _ _).obeys_bind (fun _ _ => .aside)
          (fun tasker => .aside (.refl tasker)) fun result => ?_
        split
        · exact done _
        · exact ends _ _
        · exact ends _ _
      · exact ends _ _

/-- **In its turn the worker takes a job, holds it and lets go of it when it has
ended.** -/
theorem serve_obeys (patience : Nat) :
    (serve patience).Obeys WorkPhase.Go WorkPhase.Over .free := by
  intro tasker
  cases taken : tasker.runner.take.1 with
  | none =>
    have same : tasker.runner.take.2 = tasker.runner := by
      rcases tasker.runner.take_cases with same | ⟨first, rest, queued, took⟩
      · rw [same]
      · rw [took] at taken
        cases taken
    refine ⟨.free, .aside ⟨rfl, same, rfl, rfl, rfl⟩, ?_⟩
    show Obeys _ _ (Activity.bind (.done tasker.runner.take.1) _) _
    rw [taken]
    trivial
  | some job =>
    refine ⟨.holding job.1 job.2, .take taken, ?_⟩
    show Obeys _ _ (Activity.bind (.done tasker.runner.take.1) _) _
    rw [taken]
    refine (execute_obeys patience job.1 job.2).bind fun outcome phase ended => ?_
    obtain ⟨rfl, notCancelled⟩ := ended
    cases outcome with
    | none => trivial
    | some outcome =>
      refine fun tasker => ⟨.free, .finish fun isMarker same => ?_, trivial⟩
      exact notCancelled isMarker (congrArg some same)

end Tasker

end ScreenPilot
