import ScreenPilot.Proofs.Tasker.Conclusion
import ScreenPilot.Proofs.Tasker.Standing

/-!
# How far calls and the worker have come

The stages of a call that posts tell what it has seen to be bound, and those of a
call that stops tell which tasks it has yet to put on record as stopped
(`CallStage`). The stages of the worker's job tell whether the task was found to
be asked to stop, and what is on record of it (`JobStage`). Every other step is
apart from the records.

`tryPost_goes`, `postStop_goes` and `WorkStage.At.moves` say that calls and the
worker go from stage to stage in this way, and `WorkStage.At.asks` what the worker
may ask in a stage: before a task has passed the check of its request to stop,
only the date.
-/

set_option autoImplicit false

namespace ScreenPilot

open Activity

/-! ## Calls -/

/-- How far a call has come. -/
inductive CallStage where
  /-- There is no such call, or it is one of another operation. -/
  | aside
  /-- A call that posts has seen nothing yet. -/
  | asking
  /-- It has seen that a resource is bound. -/
  | located
  /-- It has seen that a controller is bound, too. -/
  | ready
  | accepted (task : TaskId)
  /-- A call that stops has not begun. -/
  | called
  /-- Nothing is accepted from here on. -/
  | raised
  /-- What runs and is to run has been asked to stop. -/
  | signalled
  /-- These jobs have been dropped out of the queue. -/
  | dropped (jobs : List JobId)
  /-- These tasks are yet to be put on record as stopped. -/
  | recording (tasks : List TaskId)
  | drawn (marker : TaskId)
  /-- The marker has been put into the queue. -/
  | marked (marker : TaskId)

namespace CallStage

/-- The call has nothing left to do that is told here. -/
def isOver : CallStage → Bool
  | .aside | .accepted _ | .marked _ => true
  | .asking | .located | .ready | .called | .raised | .signalled | .dropped _ | .recording _
  | .drawn _ => false

/-- The stages of calls that post. -/
def isPost : CallStage → Bool
  | .asking | .located | .ready | .accepted _ => true
  | .aside | .called | .raised | .signalled | .dropped _ | .recording _ | .drawn _
  | .marked _ => false

/-- The steps of calls that post and of calls that stop. -/
inductive Go : CallStage → Tasker → Tasker → CallStage → Prop where
  | apart {stage : CallStage} {before after : Tasker} (ongoing : stage.isOver = false)
      (apart : before.Apart after) : Go stage before after stage
  | locate {tasker : Tasker} (bound : tasker.resource.isSome) : Go .asking tasker tasker .located
  | ready {tasker : Tasker} (bound : tasker.controller.isSome) : Go .located tasker tasker .ready
  | accept {tasker : Tasker} {entry : String} {kind : TaskKind} {overrides : Graph}
      {now : Timestamp} (isTask : kind ≠ .marker) (going : tasker.stopping = false) :
      Go .ready tasker (tasker.accept entry kind overrides now).2
        (.accepted tasker.drawTask.1)
  | raise (tasker : Tasker) : Go .called tasker { tasker with stopping := true } .raised
  | signal (tasker : Tasker) : Go .raised tasker tasker.signalAll .signalled
  | clear (tasker : Tasker) :
      Go .signalled tasker { tasker with runner := tasker.runner.clear.2 }
        (.dropped tasker.runner.clear.1)
  | list {jobs : List JobId} (tasker : Tasker) :
      Go (.dropped jobs) tasker tasker (.recording (jobs.filterMap fun job => tasker.tasks[job]?))
  | record {task : TaskId} {tasks : List TaskId} (tasker : Tasker) (now : Timestamp) :
      Go (.recording (task :: tasks)) tasker (tasker.record task .stopped now) (.recording tasks)
  | draw (tasker : Tasker) : Go (.recording []) tasker tasker.drawTask.2 (.drawn tasker.drawTask.1)
  | mark {marker : TaskId} (tasker : Tasker) :
      Go (.drawn marker) tasker (tasker.enqueueMarker marker) (.marked marker)

/-- A call may look and wait until it is over. -/
theorem Go.look {stage : CallStage} (ongoing : stage.isOver = false) (tasker : Tasker) :
    Go stage tasker tasker stage :=
  .apart ongoing (.refl tasker)

/-- Only a call that is not over moves. -/
theorem Go.ongoing {stage stage' : CallStage} {before after : Tasker}
    (go : Go stage before after stage') : stage.isOver = false := by
  cases go with
  | apart ongoing => exact ongoing
  | locate | ready | accept | raise | signal | clear | list | record | draw | mark => exact rfl

/-- A call that posts is never one that stops. -/
theorem Go.isPost {stage stage' : CallStage} {before after : Tasker}
    (go : Go stage before after stage') : stage'.isPost = stage.isPost := by
  cases go <;> rfl

/-- A call that posts ends with a task that it has seen to be accepted, or with none. -/
def PostOver (stage : CallStage) : Outcome TaskId → Prop
  | .ok task => stage = .accepted task
  | .error _ => stage.isOver = false

/-- A call that stops ends with its marker in the queue. -/
def StopOver (stage : CallStage) (marker : TaskId) : Prop := stage = .marked marker

/-- A call that obeys a stage in which it is over has ended. -/
theorem done_of_isOver {α : Type} {last : CallStage → α → Prop} {stage : CallStage}
    {rest : Tasker.Tasking α} (isOver : stage.isOver = true) (obeys : rest.Obeys Go last stage) :
    ∃ value, rest = .done value ∧ last stage value := by
  have stuck : ∀ {before after : Tasker} {stage' : CallStage}, ¬ Go stage before after stage' := by
    intro before after stage' go
    rw [go.ongoing] at isOver
    cases isOver
  cases rest with
  | done value => exact ⟨value, rfl, obeys⟩
  | step change next =>
    obtain ⟨stage', go, -⟩ := obeys default
    exact absurd go stuck
  | ask question next => exact absurd (obeys.1 default) stuck

end CallStage

namespace Tasker

open CallStage

/-! ### Posting -/

theorem checkReady_goes : checkReady.Obeys Go
    (fun stage ready => stage.isOver = false ∧ (ready = .ok () → stage = .ready)) .asking := by
  refine .reads fun tasker => ?_
  cases isResource : tasker.resource with
  | none => exact ⟨.asking, .look rfl tasker, rfl, nofun⟩
  | some resource =>
    refine ⟨.located, .locate (by rw [isResource]; rfl), .look rfl, fun isLoaded => ?_⟩
    cases isLoaded with
    | false => exact ⟨rfl, nofun⟩
    | true =>
      refine Obeys.reads fun tasker => ?_
      cases isController : tasker.controller with
      | none => exact ⟨.located, .look rfl tasker, rfl, nofun⟩
      | some controller =>
        refine ⟨.ready, .ready (by rw [isController]; rfl), .look rfl, fun isConnected => ?_⟩
        cases isConnected with
        | false => exact ⟨rfl, nofun⟩
        | true => exact ⟨rfl, fun _ => rfl⟩

theorem decision_goes (entry : String) {kind : TaskKind} (isTask : kind ≠ .marker)
    (overrides : Graph) (now : Timestamp) :
    (decision entry kind overrides now).Obeys Go PostOver .ready := by
  refine .transact fun tasker => ?_
  cases stopping : tasker.stopping with
  | true =>
    rw [accept_of_stopping stopping]
    exact ⟨.ready, .look rfl tasker, rfl⟩
  | false =>
    refine ⟨_, .accept isTask stopping, ?_⟩
    unfold accept
    rw [stopping]
    exact rfl

/-- **A call that posts has seen a resource and a controller when a task is accepted.** -/
theorem tryPost_goes (entry : String) (overrides : Json) {kind : TaskKind}
    (isTask : kind ≠ .marker) : (tryPost entry overrides kind).Obeys Go PostOver .asking := by
  refine checkReady_goes.bind fun checked stage seen => ?_
  obtain ⟨ongoing, isReady⟩ := seen
  cases checked with
  | error error => exact ongoing
  | ok _ =>
    obtain rfl := isReady rfl
    refine Obeys.reads fun tasker => ⟨.ready, .look rfl tasker, ?_⟩
    cases readOverrides tasker.defaults overrides with
    | error error => exact rfl
    | ok overrides => exact ⟨.look rfl, fun now => decision_goes entry isTask overrides now⟩

/-! ### Stopping -/

/-- What is left of a call that stops once it has dropped jobs out of the queue. -/
def recording (dropped : List JobId) : Tasking TaskId := do
  stopDropped (← Activity.reads Tasker.tasks) dropped
  let marker ← Activity.transact drawTask
  Activity.modify fun tasker => tasker.enqueueMarker marker
  pure marker

/-- What is left of it once it has told the outside to give up what takes long. -/
def clearing : Tasking TaskId := do
  let dropped ← Activity.transact fun tasker =>
    (tasker.runner.clear.1, { tasker with runner := tasker.runner.clear.2 })
  recording dropped

/-- What is left of it once it has asked the tasks of the runner to stop. -/
def halting : Tasking TaskId := do
  haltOutside
  clearing

/-- What is left of it once it has told the tasker to turn posts down. -/
def signalling : Tasking TaskId := do
  Activity.modify signalAll
  halting

theorem postStop_eq : postStop = (do
    Activity.modify fun tasker => { tasker with stopping := true }
    signalling) := rfl

theorem apart_haltOutside : haltOutside.Steps Apart := steps_haltOutside Apart.refl

/-- The tasks of dropped jobs are put on record one after the other. -/
theorem stopDropped_goes (tasks : Std.ExtTreeMap JobId TaskId) (jobs : List JobId) :
    (stopDropped tasks jobs).Obeys Go (fun stage _ => stage = .recording [])
      (.recording (jobs.filterMap fun job => tasks[job]?)) := by
  induction jobs with
  | nil => exact rfl
  | cons job jobs ih =>
    unfold stopDropped
    rw [List.filterMap_cons]
    cases tasks[job]? with
    | none => exact ih
    | some task =>
      refine ⟨.look rfl, fun now tasker => ?_⟩
      exact ⟨_, .record tasker now, ih⟩

theorem halting_goes : halting.Obeys Go StopOver .signalled := by
  refine apart_haltOutside.obeys_bind (fun _ _ => .apart rfl) (.look rfl) fun _ => ?_
  refine fun tasker => ⟨_, .clear tasker, ?_⟩
  refine fun tasker => ⟨_, .list tasker, ?_⟩
  refine (stopDropped_goes _ _).bind fun _ stage isEmpty => ?_
  cases isEmpty
  refine fun tasker => ⟨_, .draw tasker, ?_⟩
  exact fun tasker => ⟨_, .mark tasker, rfl⟩

theorem signalling_goes : signalling.Obeys Go StopOver .raised :=
  fun tasker => ⟨.signalled, .signal tasker, halting_goes⟩

/-- **A call that stops goes through its stages, one after the other.** -/
theorem postStop_goes : postStop.Obeys Go StopOver .called := by
  rw [postStop_eq]
  exact fun tasker => ⟨.raised, .raise tasker, signalling_goes⟩

end Tasker

/-! ## The worker -/

/-- How far the worker has come with a job. -/
inductive JobStage where
  /-- The job has been taken, and is about to be carried out. -/
  | taken
  /-- The task was found to be asked to stop. -/
  | turned
  /-- The task was found not to be asked to stop. -/
  | passed
  /-- The task cannot run, because something is not bound. -/
  | stranded
  /-- The task is on record as running. -/
  | started
  /-- The end of the task is on record. -/
  | closed (status : TaskStatus)
  /-- The job is a marker that has let posts pass. -/
  | reached

/-- From a stage on, the end of a task may be put on record in this way. -/
inductive JobStage.Closes : JobStage → TaskStatus → Prop where
  | turned : Closes .turned .stopped
  | stranded : Closes .stranded .failed
  | started {status : TaskStatus} (done : status.isDone = true) : Closes .started status

/-- What the worker has in hand, and how far it has come with it. -/
inductive WorkStage where
  | free
  | holding (id : JobId) (job : TaskJob) (stage : JobStage)

namespace WorkStage

/-- The steps of the worker. -/
inductive Go : WorkStage → Tasker → Tasker → WorkStage → Prop where
  | apart {id : JobId} {job : TaskJob} {stage : JobStage} {before after : Tasker}
      (begun : stage ≠ .taken) (apart : before.Apart after) :
      Go (.holding id job stage) before after (.holding id job stage)
  | take {tasker : Tasker} {id : JobId} {job : TaskJob}
      (taken : tasker.runner.take.1 = some (id, job)) :
      Go .free tasker { tasker with runner := tasker.runner.take.2 } (.holding id job .taken)
  /-- The marker of a request to stop is reached. -/
  | reach {tasker : Tasker} {id : JobId} {job : TaskJob} (isMarker : job.kind = .marker) :
      Go (.holding id job .taken) tasker { tasker with stopping := false }
        (.holding id job .reached)
  | turn {tasker : Tasker} {id : JobId} {job : TaskJob} (isTask : job.kind ≠ .marker)
      (asked : tasker.engine.stopped.contains job.task = true) :
      Go (.holding id job .taken) tasker tasker (.holding id job .turned)
  | pass {tasker : Tasker} {id : JobId} {job : TaskJob} (isTask : job.kind ≠ .marker)
      (unasked : tasker.engine.stopped.contains job.task = false) :
      Go (.holding id job .taken) tasker tasker (.holding id job .passed)
  | strand {tasker : Tasker} {id : JobId} {job : TaskJob} (isTask : job.kind ≠ .marker)
      (unbound : tasker.controller = none ∨ tasker.resource = none) :
      Go (.holding id job .passed) tasker tasker (.holding id job .stranded)
  | start {id : JobId} {job : TaskJob} (isTask : job.kind ≠ .marker) (tasker : Tasker)
      (now : Timestamp) :
      Go (.holding id job .passed) tasker (tasker.record job.task .running now)
        (.holding id job .started)
  | close {id : JobId} {job : TaskJob} {stage : JobStage} {status : TaskStatus}
      (isTask : job.kind ≠ .marker) (closes : stage.Closes status) (tasker : Tasker)
      (now : Timestamp) :
      Go (.holding id job stage) tasker (tasker.record job.task status now)
        (.holding id job (.closed status))
  /-- A job ends as its task did. -/
  | finish {id : JobId} {job : TaskJob} {status : TaskStatus} {outcome : JobOutcome}
      (isTask : job.kind ≠ .marker) (same : (JobStatus.ofOutcome outcome).task = status)
      (tasker : Tasker) :
      Go (.holding id job (.closed status)) tasker
        { tasker with runner := tasker.runner.finish id outcome } .free
  | leave {id : JobId} {job : TaskJob} (isMarker : job.kind = .marker) (tasker : Tasker) :
      Go (.holding id job .reached) tasker
        { tasker with runner := tasker.runner.finish id .succeeded } .free

/-- What the worker may ask: anything for a task that has started, and the date to put
something on record. -/
def May : WorkStage → Engine.Question → Prop
  | .holding _ _ .started, _ => True
  | .holding _ _ .turned, question => question = .date
  | .holding _ _ .passed, question => question = .date
  | .holding _ _ .stranded, question => question = .date
  | _, _ => False

/-- The worker's turn ends with empty hands, or with a task that goes on. -/
def Over (stage : WorkStage) (_ : Bool) : Prop :=
  stage = .free ∨ ∃ id job, stage = .holding id job .started

/-- How the worker's turn goes on when a job has been carried out. -/
def afterwards (id : JobId) : Option JobOutcome → Tasker.Tasking Bool
  | none => pure true
  | some outcome => do
    Activity.modify fun tasker => { tasker with runner := tasker.runner.finish id outcome }
    pure true

/-- What is left of the worker's turn in a stage. -/
def At : WorkStage → Tasker.Tasking Bool → Prop
  | .free, rest => (∃ served, rest = .done served) ∨ ∃ patience, rest = Tasker.serve patience
  | .holding id job .taken, rest => ∃ patience, rest = Tasker.execute patience job >>= afterwards id
  | stage, rest => rest.Abides Go May Over stage

/-- A job that has been carried out goes on, or its end is on record if it is that of a
task. -/
inductive Concluded (id : JobId) (job : TaskJob) : WorkStage → Option JobOutcome → Prop where
  | unfinished : Concluded id job (.holding id job .started) none
  | closed (isTask : job.kind ≠ .marker) (outcome : JobOutcome) :
      Concluded id job (.holding id job (.closed (JobStatus.ofOutcome outcome).task)) (some outcome)
  | reached (isMarker : job.kind = .marker) :
      Concluded id job (.holding id job .reached) (some .succeeded)

end WorkStage

namespace Tasker

open WorkStage

variable {id : JobId} {job : TaskJob}

/-- An end is put on record, and announced. -/
theorem closing_abides {stage : JobStage} {outcome : JobOutcome} {status : TaskStatus}
    (isTask : job.kind ≠ .marker) (same : status = (JobStatus.ofOutcome outcome).task)
    (closes : stage.Closes status) :
    (do
      withEngine (finishTask job status)
      pure (some outcome) : Tasking (Option JobOutcome)).Abides Go May (Concluded id job)
        (.holding id job stage) := by
  have date : May (.holding id job stage) .date := by
    cases closes with
    | turned | stranded => exact rfl
    | started => trivial
  rw [same] at closes ⊢
  refine ⟨date, fun now tasker => ⟨_, .close isTask closes tasker now, fun tasker => ?_⟩⟩
  exact ⟨_, .apart nofun (.ofEngine (Engine.leaves_of_tasks rfl rfl rfl)), .closed isTask outcome⟩

theorem conclude_abides (isTask : job.kind ≠ .marker) (result : RunResult) :
    (conclude job result).Abides Go May (Concluded id job) (.holding id job .started) := by
  cases result with
  | unfinished => exact .unfinished
  | crashed => exact closing_abides isTask rfl (.started rfl)
  | ended outcome => cases outcome <;> exact closing_abides isTask rfl (.started rfl)

theorem startTask_abides (isTask : job.kind ≠ .marker) (patience : Nat)
    (controller resource : Handle) :
    (startTask patience job controller resource).Abides Go May
      (fun stage _ => stage = .holding id job .started) (.holding id job .passed) := by
  refine ⟨rfl, fun now tasker => ⟨_, .start isTask tasker now, ?_⟩⟩
  -- from here on the task is on record as running, and anything may be asked
  refine fun tasker => ⟨_, .apart nofun (.ofEngine (Engine.leaves_of_tasks rfl rfl rfl)), ?_⟩
  refine fun tasker => ⟨_, .apart nofun (.refl tasker), ?_⟩
  refine fun tasker => ⟨_, .apart nofun (.refl tasker), ?_⟩
  refine ⟨trivial, fun graph tasker => ⟨_, .apart nofun (.refl tasker), ?_⟩⟩
  exact (apart_runTask _ _).abides (fun _ _ => .apart nofun) fun _ => trivial

/-- A task that was found not to be asked to stop is run, if a controller and a resource
are bound. -/
theorem passed_abides (isTask : job.kind ≠ .marker) (patience : Nat) :
    (do
      let controller ← Activity.reads Tasker.controller
      let resource ← Activity.reads Tasker.resource
      match controller, resource with
      | some controller, some resource =>
        startTask patience job controller resource >>= conclude job
      | _, _ => conclude job .crashed).Abides Go May (Concluded id job)
        (.holding id job .passed) := by
  have stranded : (conclude job .crashed).Abides Go May (Concluded id job)
      (.holding id job .stranded) :=
    closing_abides isTask rfl .stranded
  refine .reads fun tasker => ?_
  cases isController : tasker.controller with
  | none =>
    refine ⟨_, .strand isTask (.inl isController), .reads fun other => ?_⟩
    exact ⟨_, .apart nofun (.refl other), stranded⟩
  | some controller =>
    refine ⟨_, .apart nofun (.refl tasker), .reads fun other => ?_⟩
    cases isResource : other.resource with
    | none => exact ⟨_, .strand isTask (.inr isResource), stranded⟩
    | some resource =>
      refine ⟨_, .apart nofun (.refl other), ?_⟩
      refine (startTask_abides isTask patience controller resource).bind fun result stage started => ?_
      rw [started]
      exact conclude_abides isTask result

/-- **A job that was taken is carried out from stage to stage.** -/
theorem execute_abides (patience : Nat) :
    (execute patience job).Abides Go May (Concluded id job) (.holding id job .taken) := by
  by_cases isMarker : job.kind = .marker
  · rw [execute, if_pos isMarker]
    exact fun tasker => ⟨_, .reach isMarker, .reached isMarker⟩
  · rw [execute_eq patience isMarker]
    refine .reads fun tasker => ?_
    cases asked : tasker.engine.stopped.contains job.task with
    | true => exact ⟨_, .turn isMarker asked, closing_abides isMarker rfl .turned⟩
    | false => exact ⟨_, .pass isMarker asked, passed_abides isMarker patience⟩

/-- What is left of the worker's turn when a job has been carried out. -/
theorem afterwards_abides {stage : WorkStage} {outcome : Option JobOutcome}
    (concluded : Concluded id job stage outcome) :
    (afterwards id outcome).Abides Go May Over stage := by
  cases concluded with
  | unfinished => exact .inr ⟨id, job, rfl⟩
  | closed isTask outcome => exact fun tasker => ⟨.free, .finish isTask rfl tasker, .inl rfl⟩
  | reached isMarker => exact fun tasker => ⟨.free, .leave isMarker tasker, .inl rfl⟩

end Tasker

namespace WorkStage

variable {stage : WorkStage} {rest rest' : Tasker.Tasking Bool} {before after : Tasker}

/-- At the beginning of its turn the worker takes a job, if there is one. -/
theorem serve_moves {patience : Nat}
    (moves : (Tasker.serve patience).Moves before rest after) :
    after = { before with runner := before.runner.take.2 } ∧
      rest = match before.runner.take.1 with
        | none => .done false
        | some (id, job) => Tasker.execute patience job >>= afterwards id := by
  cases moves with
  | step => exact ⟨rfl, rfl⟩

/-- What abides a stage other than that of a job just taken is what is left in it. -/
theorem at_of_abides (abides : rest.Abides Go May Over stage)
    (begun : ∀ id job, stage ≠ .holding id job .taken) : stage.At rest := by
  cases stage with
  | free =>
    cases rest with
    | done value => exact .inl ⟨value, rfl⟩
    | step change next =>
      -- an empty queue has no job to take
      obtain ⟨stage', go, -⟩ := abides default
      generalize change default = after at go
      cases go with
      | take taken => cases taken
    | ask question next => exact absurd abides.1 id
  | holding id job stage =>
    cases stage with
    | taken => exact absurd rfl (begun id job)
    | turned | passed | stranded | started | closed | reached => exact abides

/-- The worker takes a job only with empty hands. -/
theorem Go.begun {stage' : WorkStage} (go : Go stage before after stage')
    (holds : stage ≠ .free) : ∀ id job, stage' ≠ .holding id job .taken := by
  cases go with
  | apart begun =>
    rintro id job ⟨⟩
    exact begun rfl
  | take => exact absurd rfl holds
  | reach | turn | pass | strand | start | close | finish | leave => exact nofun

/-- What is left of a job that the worker holds abides its stage. -/
theorem At.abides {id : JobId} {job : TaskJob} {stage : JobStage}
    (isAt : At (.holding id job stage) rest) :
    rest.Abides Go May Over (.holding id job stage) := by
  cases stage with
  | taken =>
    obtain ⟨patience, rfl⟩ := isAt
    exact (Tasker.execute_abides patience).bind fun _ _ => Tasker.afterwards_abides
  | turned | passed | stranded | started | closed | reached => exact isAt

/-- **The worker goes from stage to stage.** -/
theorem At.moves (isAt : stage.At rest) (moves : rest.Moves before rest' after) :
    (∃ stage', Go stage before after stage' ∧ stage'.At rest') ∨
      after = before ∧ stage.At rest' := by
  cases stage with
  | free =>
    rcases isAt with ⟨served, rfl⟩ | ⟨patience, rfl⟩
    · cases moves
    · obtain ⟨rfl, rfl⟩ := serve_moves moves
      rcases before.runner.take_cases with nothing | ⟨first, queue, -, took⟩
      · rw [nothing]
        exact .inr ⟨rfl, .inl ⟨false, rfl⟩⟩
      · have taken : before.runner.take.1 = some (first.1, first.2) := congrArg Prod.fst took
        refine .inl ⟨_, .take taken, patience, ?_⟩
        rw [taken]
  | holding id job stage =>
    rcases isAt.abides.moves moves with ⟨stage', go, abides⟩ | ⟨⟨question, may⟩, same, abides⟩
    · exact .inl ⟨stage', go, at_of_abides abides (go.begun nofun)⟩
    · refine .inr ⟨same, at_of_abides abides ?_⟩
      rintro id job ⟨⟩
      exact may

/-- What the worker asks is what it may ask. -/
theorem At.asks {question : Engine.Question} {next : Engine.Answer question → Tasker.Tasking Bool}
    (isAt : stage.At (.ask question next)) : May stage question := by
  cases stage with
  | free =>
    rcases isAt with ⟨served, same⟩ | ⟨patience, same⟩
    · cases same
    · cases same
  | holding id job stage => exact isAt.abides.1

end WorkStage

end ScreenPilot
