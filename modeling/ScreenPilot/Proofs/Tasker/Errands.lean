import ScreenPilot.Proofs.Run.Course
import ScreenPilot.Proofs.Run.References
import ScreenPilot.Proofs.Tasker.Stages

/-!
# What the worker announces

The worker announces that a task starts, what the task's run announces, and how the task
has ended. `Duty` tells how far it has come with a job, and `Duty.Go` which steps it takes
with it: one that announces comes after one that puts on record what is announced. A task
that was asked to stop before it began is announced only to have ended.

`serve_errands` says that the worker takes these steps, whatever collaborators answer and
whatever others do in between. Calls that post or stop announce nothing, and change no
record of an attempt or an action (`Call.Begins.hushed`).
-/

set_option autoImplicit false

namespace ScreenPilot

open Activity

namespace Tasker

/-- An event is published. -/
def publish (event : Notification) (tasker : Tasker) : Tasker :=
  { tasker with engine := { tasker.engine with
      notifier := tasker.engine.notifier.emit event } }

end Tasker

/-! ## The duties of the worker -/

/-- How far the worker has come with a job. -/
inductive Duty where
  /-- The job has been taken, and nothing was announced. -/
  | taken
  /-- The task was found to be asked to stop. -/
  | turned
  /-- Something was found not to be bound. -/
  | stranded
  /-- The task is on record as running. -/
  | noted
  /-- The start of the task was announced, and its run has come so far. -/
  | working (course : Course)
  /-- The end of the task is on record. -/
  | closing (status : TaskStatus)
  /-- The end of the task was announced. -/
  | told
  /-- The job is a marker that has let posts pass. -/
  | reached

namespace Duty

/-- The end of a task may be put on record in this way. -/
inductive Closes : Duty → TaskStatus → Prop where
  | turned : Closes .turned .stopped
  | stranded : Closes .stranded .failed
  | working {course : Course} {status : TaskStatus} (calm : course.phase = .calm)
      (done : status.isDone = true) : Closes (.working course) status

/-- The steps that the worker takes with a job. -/
inductive Go (job : TaskJob) : Duty → Tasker → Tasker → Duty → Prop where
  | look (duty : Duty) (tasker : Tasker) : Go job duty tasker tasker duty
  | reach (isMarker : job.kind = .marker) (tasker : Tasker) :
      Go job .taken tasker { tasker with stopping := false } .reached
  | turn {tasker : Tasker} (isTask : job.kind ≠ .marker)
      (asked : tasker.engine.stopped.contains job.task = true) :
      Go job .taken tasker tasker .turned
  | strand {tasker : Tasker} (isTask : job.kind ≠ .marker)
      (unbound : tasker.controller = none ∨ tasker.resource = none) :
      Go job .taken tasker tasker .stranded
  | note (isTask : job.kind ≠ .marker) (tasker : Tasker) (now : Timestamp) :
      Go job .taken tasker (tasker.record job.task .running now) .noted
  | announce (tasker : Tasker) :
      Go job .noted tasker (tasker.publish (.ofTask ⟨.starting, job.task, job.entry⟩))
        (.working ⟨.empty, .calm⟩)
  | work {course course' : Course} {tasker : Tasker} {engine : Engine}
      (go : Course.Go job.task (job.kind = .pipeline) course tasker.engine engine course') :
      Go job (.working course) tasker { tasker with engine } (.working course')
  | close {duty : Duty} {status : TaskStatus} (isTask : job.kind ≠ .marker)
      (closes : duty.Closes status) (tasker : Tasker) (now : Timestamp) :
      Go job duty tasker (tasker.record job.task status now) (.closing status)
  | report {status : TaskStatus} (tasker : Tasker) :
      Go job (.closing status) tasker
        (tasker.publish (.ofTask ⟨.ofStatus status, job.task, job.entry⟩)) .told

/-- The worker is done with a job. -/
def IsOver (duty : Duty) : Prop := duty = .told ∨ duty = .reached

/-- When a job has an outcome, the worker is done with it. -/
def Ended (duty : Duty) (outcome : Option JobOutcome) : Prop := outcome.isSome → duty.IsOver

theorem Go.runner {job : TaskJob} {duty duty' : Duty} {before after : Tasker}
    (go : Go job duty before after duty') : after.runner = before.runner := by
  cases go <;> rfl

end Duty

namespace Tasker

open Duty

variable {job : TaskJob}

/-- An end is put on record, and announced. -/
theorem finishTask_obeys (isTask : job.kind ≠ .marker) {duty : Duty} {status : TaskStatus}
    (closes : duty.Closes status) (outcome : JobOutcome) :
    (do
      withEngine (finishTask job status)
      pure (some outcome) : Tasking (Option JobOutcome)).Obeys (Duty.Go job) Ended duty :=
  ⟨.look duty, fun now tasker => ⟨_, .close isTask closes tasker now,
    fun tasker => ⟨_, .report tasker, fun _ => .inl rfl⟩⟩⟩

theorem conclude_obeys (isTask : job.kind ≠ .marker) {course : Course}
    (calm : course.phase = .calm) (result : RunResult) :
    (conclude job result).Obeys (Duty.Go job) Ended (.working course) := by
  cases result with
  | unfinished => exact nofun
  | crashed => exact finishTask_obeys isTask (.working calm rfl) _
  | ended outcome => cases outcome <;> exact finishTask_obeys isTask (.working calm rfl) _

/-- What a task asks for takes its steps in order; only a pipeline walks the graph. -/
theorem runTask_goes (context : RunContext) (job : TaskJob) :
    (runTask context job).Obeys (Course.Go context.task (job.kind = .pipeline)) Course.Over
      ⟨.empty, .calm⟩ := by
  unfold runTask
  split
  · exact (context.run_goes .empty job.entry).bind fun _ _ calm => calm
  · exact context.recognizeOnce_goes job.entry
  · rename_i box isAction
    exact context.actOnce_goes job.entry box (by rw [isAction]; exact nofun)
  · exact rfl

/-- The run of a task that takes its steps in order. -/
def Works (duty : Duty) (_ : RunResult) : Prop :=
  ∃ course, duty = .working course ∧ course.phase = .calm

theorem startTask_obeys (isTask : job.kind ≠ .marker) (patience : Nat)
    (controller resource : Handle) :
    (startTask patience job controller resource).Obeys (Duty.Go job) Works .taken := by
  refine ⟨.look _, fun now tasker => ⟨_, .note isTask tasker now, fun tasker => ?_⟩⟩
  refine ⟨_, .announce tasker, .reads fun tasker => ⟨_, .look _ tasker, .reads fun tasker => ?_⟩⟩
  refine ⟨_, .look _ tasker, .look _, fun graph => .reads fun tasker => ⟨_, .look _ tasker, ?_⟩⟩
  exact (runTask_goes _ job).within (fun _ => rfl) Duty.working fun _ _ _ _ go => .work go

/-- **A job that was taken is carried out duty by duty.** -/
theorem execute_duties (patience : Nat) :
    (execute patience job).Obeys (Duty.Go job) Ended .taken := by
  by_cases isMarker : job.kind = .marker
  · rw [execute, if_pos isMarker]
    exact fun tasker => ⟨_, .reach isMarker tasker, fun _ => .inr rfl⟩
  · rw [execute_eq patience isMarker]
    have stranded : (conclude job .crashed).Obeys (Duty.Go job) Ended .stranded :=
      finishTask_obeys isMarker .stranded _
    refine .reads fun tasker => ?_
    cases asked : tasker.engine.stopped.contains job.task with
    | true => exact ⟨_, .turn isMarker asked, finishTask_obeys isMarker .turned _⟩
    | false =>
      refine ⟨_, .look _ tasker, .reads fun tasker => ?_⟩
      cases isController : tasker.controller with
      | none =>
        refine ⟨_, .strand isMarker (.inl isController), .reads fun other => ?_⟩
        exact ⟨_, .look _ other, stranded⟩
      | some controller =>
        refine ⟨_, .look _ tasker, .reads fun other => ?_⟩
        cases isResource : other.resource with
        | none => exact ⟨_, .strand isMarker (.inr isResource), stranded⟩
        | some resource =>
          refine ⟨_, .look _ other, ?_⟩
          refine (startTask_obeys isMarker patience controller resource).bind ?_
          rintro result duty ⟨course, rfl, calm⟩
          exact conclude_obeys isMarker calm result

end Tasker

/-! ## The turns of the worker -/

/-- What the worker has in hand. -/
inductive Errand where
  | free
  | holding (id : JobId) (job : TaskJob) (duty : Duty)

namespace Errand

/-- The job in hand. -/
def held : Errand → Option (JobId × TaskJob)
  | .free => none
  | .holding id job _ => some (id, job)

/-- The steps of the worker. -/
inductive Go : Errand → Tasker → Tasker → Errand → Prop where
  | idle (tasker : Tasker) : Go .free tasker tasker .free
  | take {tasker : Tasker} {id : JobId} {job : TaskJob}
      (taken : tasker.runner.take.1 = some (id, job)) :
      Go .free tasker { tasker with runner := tasker.runner.take.2 } (.holding id job .taken)
  | within {id : JobId} {job : TaskJob} {duty duty' : Duty} {before after : Tasker}
      (go : Duty.Go job duty before after duty') :
      Go (.holding id job duty) before after (.holding id job duty')
  | finish {id : JobId} {job : TaskJob} {duty : Duty} (isOver : duty.IsOver) (tasker : Tasker)
      (outcome : JobOutcome) :
      Go (.holding id job duty) tasker { tasker with runner := tasker.runner.finish id outcome }
        .free

variable {errand errand' : Errand} {before after : Tasker}

/-- What the worker has in hand is the current job. -/
theorem Go.held (go : Go errand before after errand')
    (held : before.runner.current = errand.held) : after.runner.current = errand'.held := by
  cases go with
  | idle => exact held
  | take taken => exact Runner.current_take taken
  | within go => exact (congrArg Runner.current go.runner).trans held
  | finish => rfl

/-- A job in hand is carried on with, or given back when the worker is done with it. -/
theorem Go.of_holding {id : JobId} {job : TaskJob} {duty : Duty}
    (go : Go (.holding id job duty) before after errand') :
    (∃ duty', errand' = .holding id job duty') ∨
      duty.IsOver ∧ ∃ outcome,
        after = { before with runner := before.runner.finish id outcome } := by
  cases go with
  | within => exact .inl ⟨_, rfl⟩
  | finish isOver _ outcome => exact .inr ⟨isOver, outcome, rfl⟩

end Errand

/-- **The worker's turn is to take a job, to carry it out and to give it back.** -/
theorem Tasker.serve_errands (patience : Nat) :
    (serve patience).Obeys Errand.Go (fun _ _ => True) .free := by
  refine .transact_bind fun tasker => ?_
  rcases tasker.runner.take_cases with nothing | ⟨⟨id, job⟩, queue, -, took⟩
  · rw [nothing]
    exact ⟨_, .idle tasker, trivial⟩
  · have taken : tasker.runner.take.1 = some (id, job) := congrArg Prod.fst took
    refine ⟨_, .take taken, ?_⟩
    rw [taken]
    refine ((execute_duties patience).embed (Errand.holding id job) fun _ _ _ _ => .within).bind ?_
    rintro outcome _ ⟨duty, rfl, ended⟩
    cases outcome with
    | none => exact trivial
    | some outcome => exact fun tasker => ⟨_, .finish (ended rfl) tasker outcome, trivial⟩

/-! ## Calls that announce nothing -/

namespace Tasker

/-- A step that announces nothing and changes no record of an attempt, an action or a
visit. -/
structure Hushed (before after : Tasker) : Prop where
  notifier : after.engine.notifier = before.engine.notifier
  persists : before.engine.cache.Persists after.engine.cache

theorem Hushed.refl (tasker : Tasker) : tasker.Hushed tasker := ⟨rfl, .refl _⟩

theorem hushed_record (tasker : Tasker) (task : TaskId) (status : TaskStatus) (now : Timestamp) :
    tasker.Hushed (tasker.record task status now) :=
  ⟨rfl, (Cache.agrees_changeTask tasker.engine.cache task _).persists⟩

theorem notifier_foldl_raiseStop (jobs : List (JobId × TaskJob × JobStatus)) (engine : Engine) :
    (jobs.foldl (fun engine (_, job, _) => engine.raiseStop job.task) engine).notifier =
      engine.notifier := by
  induction jobs generalizing engine with
  | nil => rfl
  | cons first rest ih => exact ih _

theorem hushed_signalAll (tasker : Tasker) : tasker.Hushed tasker.signalAll where
  notifier := notifier_foldl_raiseStop _ _
  persists := by
    unfold signalAll
    rw [cache_foldl_raiseStop]
    exact .refl _

theorem hushed_accept (entry : String) (kind : TaskKind) (overrides : Graph) (now : Timestamp)
    (tasker : Tasker) : tasker.Hushed (tasker.accept entry kind overrides now).2 := by
  unfold accept
  split
  · exact .refl tasker
  · exact ⟨rfl, .of_eq rfl rfl rfl⟩

/-- A call that posts announces nothing. -/
theorem Decides.hushed {rest : Tasking (Outcome TaskId)} (decides : Decides rest) :
    rest.Steps Hushed := by
  induction rest with
  | done outcome => trivial
  | step change next ih =>
    intro tasker
    rcases decides with looks | ⟨entry, kind, overrides, now, -, decision⟩
    · obtain ⟨same, decides⟩ := looks tasker
      exact ⟨same.symm ▸ .refl tasker, ih tasker decides⟩
    · cases decision
      exact ⟨hushed_accept entry kind overrides now tasker, trivial⟩
  | ask question next ih => exact fun answer => ih answer (decides answer)

/-- Neither does one that stops. -/
theorem hushed_postStop : postStop.Steps Hushed := by
  have records : ∀ task, (withEngine (setStatus task .stopped)).Steps Hushed :=
    fun task now tasker => ⟨hushed_record tasker task .stopped now, trivial⟩
  refine .bind (.modify fun _ => ⟨rfl, .refl _⟩) fun _ => ?_
  refine .bind (.modify hushed_signalAll) fun _ => .bind (steps_haltOutside .refl) fun _ => ?_
  refine .bind (.transact fun _ => ⟨rfl, .refl _⟩) fun _ => .bind (.reads .refl) fun _ => ?_
  refine .bind (steps_stopDropped records _ _) fun _ => ?_
  exact .bind (.transact fun _ => ⟨rfl, .refl _⟩) fun _ =>
    .bind (.modify fun _ => ⟨rfl, .refl _⟩) fun _ => .pure _

end Tasker

namespace Call

/-- What is left of a call announces nothing, unless it is one of another operation than
posting and stopping. -/
def Hushed : Call → Prop
  | .posting rest => rest.Steps Tasker.Hushed
  | .stopping rest => rest.Steps Tasker.Hushed
  | .aside _ => True

variable {call call' : Call} {before after : Tasker}

theorem Begins.hushed (begins : call.Begins) : call.Hushed := by
  cases begins with
  | post entry overrides isTask => exact (Tasker.tryPost_decides entry overrides isTask).hushed
  | stop => exact Tasker.hushed_postStop
  | aside => trivial

/-- **A call that posts or stops announces nothing.** -/
theorem Hushed.moves (hushed : call.Hushed) (moves : call.Moves before call' after) :
    call'.Hushed ∧ ((∀ rest, call ≠ .aside rest) → before.Hushed after) := by
  cases moves with
  | posting moves =>
    obtain ⟨step, rest⟩ := Steps.moves hushed .refl moves
    exact ⟨rest, fun _ => step⟩
  | stopping moves =>
    obtain ⟨step, rest⟩ := Steps.moves hushed .refl moves
    exact ⟨rest, fun _ => step⟩
  | aside => exact ⟨trivial, fun isOther => absurd rfl (isOther _)⟩

end Call

end ScreenPilot
