import ScreenPilot.Proofs.Tasker.Books

/-!
# What is on record of a task, and its job

The record of a task and the status of its job are written by different steps, of the
worker and of calls that stop. Between two such steps the one is ahead of the other, and
who takes the next step knows by how much: the worker by the stage of the job it holds,
a call that stops by the tasks it has yet to put on record (`Books.Stands`).

`Books.Stands.step` says that each step takes the status on record onward as its job
goes (`TaskStatus.Advances`), and that the record follows it, unless another operation
drops it (`Tasker.Follows`).
-/

set_option autoImplicit false

namespace ScreenPilot

/-! ## Statuses on record -/

/-- How the status of a task on record may change. -/
inductive TaskStatus.Advances : TaskStatus → TaskStatus → Prop where
  | stay (status : TaskStatus) : Advances status status
  | begin : Advances .pending .running
  | drop : Advances .pending .stopped
  | finish {status : TaskStatus} (done : status.isDone = true) : Advances .running status

/-- A status that is done stays as it is. -/
theorem TaskStatus.Advances.isDone {before after : TaskStatus} (advances : before.Advances after) :
    (after.isDone || before.isDone) = after.isDone := by
  cases advances with
  | stay => exact Bool.or_self _
  | begin => rfl
  | drop => rfl
  | finish => exact Bool.or_false _

/-- In a stage of its job, a task has this status on record. -/
inductive JobStage.Shows : JobStage → TaskStatus → Prop where
  | taken : Shows .taken .pending
  | turned : Shows .turned .pending
  | passed : Shows .passed .pending
  | started : Shows .started .running
  | closed (status : TaskStatus) : Shows (.closed status) status

/-- A call that stops has dropped the job of a task, which it has yet to put on record. -/
def CallStage.Owes (task : TaskId) (id : JobId) : CallStage → Prop
  | .dropped jobs => id ∈ jobs
  | .recording tasks => task ∈ tasks
  | .aside | .asking | .located | .ready | .accepted _ | .called | .raised | .signalled
  | .drawn _ | .marked _ => False

namespace Tasker

/-- While the status of a task goes from one to another, its record follows, unless
another operation drops it. -/
inductive Follows (hazards : Hazards) (task : TaskId) (before after : Tasker) :
    TaskStatus → TaskStatus → Prop where
  | same {status : TaskStatus} (same : after.standing task = before.standing task) :
      Follows hazards task before after status status
  | aside {status : TaskStatus} (aside : hazards.aside before after) :
      Follows hazards task before after status status
  | given {status status' : TaskStatus} (advances : status.Advances status')
      (given : after.standing task =
        (before.standing task).map fun old => (status', status'.isDone || old.2)) :
      Follows hazards task before after status status'

/-- A record that says where its task stands still does when it has followed. -/
theorem Follows.agrees {hazards : Hazards} {task : TaskId} {before after : Tasker}
    {status status' : TaskStatus} (follows : Follows hazards task before after status status')
    (spares : ∀ before after, hazards.aside before after → before.Spares after)
    (agrees : ∀ record, before.standing task = some record → record = (status, status.isDone))
    (record : TaskStatus × Bool) (standing : after.standing task = some record) :
    record = (status', status'.isDone) := by
  cases follows with
  | same same =>
    rw [same] at standing
    exact agrees record standing
  | aside aside =>
    rcases (spares _ _ aside).standing task with same | dropped
    · rw [same] at standing
      exact agrees record standing
    · rw [dropped] at standing
      cases standing
  | given advances given =>
    rw [given] at standing
    obtain ⟨old, recorded, rfl⟩ := Option.map_eq_some_iff.mp standing
    rw [agrees old recorded, advances.isDone]

end Tasker

namespace Books

variable {hazards : Hazards} {mover : Mover} {books books' : Books} {task : TaskId} {id : JobId}
  {status : TaskStatus}

/-! ## What calls have seen -/

/-- What a call has seen to be bound is bound. -/
def Sees (tasker : Tasker) : CallStage → Prop
  | .located => tasker.resource.isSome
  | .ready | .accepted _ => tasker.controller.isSome ∧ tasker.resource.isSome
  | .aside | .asking | .called | .raised | .signalled | .dropped _ | .recording _ | .drawn _
  | .marked _ => True

/-- What calls have seen to be bound is bound. -/
def Bound (books : Books) : Prop := ∀ index, Sees books.tasker (books.calls index)

/-- What is bound stays bound. -/
theorem Step.bindings (step : Step hazards mover books books')
    (spares : ∀ before after, hazards.aside before after → before.Spares after) :
    (books.tasker.controller.isSome → books'.tasker.controller.isSome) ∧
      (books.tasker.resource.isSome → books'.tasker.resource.isSome) := by
  cases step with
  | stay => exact ⟨fun held => held, fun held => held⟩
  | begin => exact ⟨fun held => held, fun held => held⟩
  | aside isAside aside hazard =>
    exact ⟨(spares _ _ hazard).controller, (spares _ _ hazard).resource⟩
  | @call _ index tasker stage go =>
    generalize books.calls index = stage' at go
    cases go with
    | apart ongoing apart => exact ⟨apart.controller, apart.resource⟩
    | @accept _ entry kind overrides date isTask going =>
      have registers := Tasker.accept_registers going entry kind overrides date
      exact ⟨fun held => registers.controller ▸ held, fun held => registers.resource ▸ held⟩
    | locate | ready | raise | signal | clear | list | record | draw | mark =>
      exact ⟨fun held => held, fun held => held⟩
  | @work _ tasker stage go =>
    generalize books.work = stage' at go
    cases go with
    | apart begun apart => exact ⟨apart.controller, apart.resource⟩
    | take | reach | turn | pass | strand | start | close | finish | leave =>
      exact ⟨fun held => held, fun held => held⟩
  | crash => exact ⟨fun held => held, fun held => held⟩

theorem Sees.persists {before after : Tasker} {stage : CallStage} (sees : Sees before stage)
    (controller : before.controller.isSome → after.controller.isSome)
    (resource : before.resource.isSome → after.resource.isSome) : Sees after stage := by
  cases stage with
  | located => exact resource sees
  | ready | accepted => exact ⟨controller sees.1, resource sees.2⟩
  | aside | asking | called | raised | signalled | dropped | recording | drawn | marked => trivial

theorem Bound.step (bound : books.Bound) (step : Step hazards mover books books')
    (spares : ∀ before after, hazards.aside before after → before.Spares after) :
    books'.Bound := by
  obtain ⟨controller, resource⟩ := step.bindings spares
  have persists : ∀ index, Sees books'.tasker (books.calls index) := fun index =>
    (bound index).persists controller resource
  have moves : ∀ (index : Nat) (stage : CallStage), Sees books'.tasker stage →
      ∀ other, Sees books'.tasker (Function.update books.calls index stage other) := by
    intro index stage sees
    exact (Function.forall_update_iff _ fun _ => Sees books'.tasker).mpr
      ⟨sees, fun other _ => persists other⟩
  cases step with
  | stay | aside | work | crash => exact persists
  | begin unborn first =>
    refine moves _ _ ?_
    rcases first with rfl | rfl <;> trivial
  | @call _ index tasker stage go =>
    refine moves index stage ?_
    have old := persists index
    generalize books.calls index = stage' at go old
    cases go with
    | apart => exact old
    | locate located => exact located
    | ready connected => exact ⟨connected, old⟩
    | accept => exact old
    | raise | signal | clear | list | record | draw | mark => trivial

/-- A task that is carried out has been accepted, so a controller and a resource are
bound. -/
theorem Bound.of_task (bound : books.Bound) (sound : books.Sound) {job : TaskJob}
    {stage : JobStage} (holding : books.work = .holding id job stage)
    (isTask : job.kind ≠ .marker) :
    books.tasker.controller.isSome ∧ books.tasker.resource.isSome := by
  have member := Runner.mem_entries_of_current (sound.current holding)
  obtain ⟨index, accepted⟩ := (sound.kinds _ member).mpr isTask
  have sees := bound index
  rw [accepted] at sees
  exact sees

/-! ## Where a task stands -/

/-- The status that a task has on record, if it has a record, as its job stands. -/
inductive Stands (hazards : Hazards) (books : Books) (task : TaskId) (id : JobId) :
    TaskStatus → Prop where
  | queued (pending : books.tasker.runner.status id = .pending) :
      Stands hazards books task id .pending
  | held {job : TaskJob} {stage : JobStage} {status : TaskStatus}
      (running : books.tasker.runner.status id = .running)
      (holding : books.work = .holding id job stage) (shows : stage.Shows status) :
      Stands hazards books task id status
  | ended {job : JobStatus} (ended : books.tasker.runner.status id = job)
      (done : job.isDone = true) : Stands hazards books task id job.task
  /-- It was dropped, which a call that stops has yet to put on record. -/
  | owed {index : Nat} (cancelled : books.tasker.runner.status id = .cancelled)
      (owes : (books.calls index).Owes task id) : Stands hazards books task id .pending
  /-- Its graph could not be had. -/
  | crashed (failed : books.tasker.runner.status id = .failed) (hazard : hazards.crash) :
      Stands hazards books task id .running

/-- The task of a job in hand stands as the stage of the job says. -/
theorem Stands.shows (stands : Stands hazards books task id status)
    (running : books.tasker.runner.status id = .running) :
    ∃ job stage, books.work = .holding id job stage ∧ stage.Shows status := by
  cases stands with
  | queued pending =>
    rw [running] at pending
    cases pending
  | held _ holding shows => exact ⟨_, _, holding, shows⟩
  | ended ended done =>
    rw [running] at ended
    cases ended
    cases done
  | owed cancelled =>
    rw [running] at cancelled
    cases cancelled
  | crashed failed =>
    rw [running] at failed
    cases failed

/-- A task whose job is pending is on record as pending. -/
theorem Stands.eq_pending (stands : Stands hazards books task id status)
    (pending : books.tasker.runner.status id = .pending) : status = .pending := by
  cases stands with
  | queued => rfl
  | held running =>
    rw [pending] at running
    cases running
  | ended ended done =>
    rw [pending] at ended
    cases ended
    cases done
  | owed => rfl
  | crashed failed =>
    rw [pending] at failed
    cases failed

/-- A task whose job is cancelled is on record as stopped, or still as pending for a call that
has yet to put it on record. -/
theorem Stands.of_cancelled (stands : Stands hazards books task id status)
    (cancelled : books.tasker.runner.status id = .cancelled) :
    status = .stopped ∨ status = .pending ∧ ∃ index, (books.calls index).Owes task id := by
  cases stands with
  | queued pending =>
    rw [cancelled] at pending
    cases pending
  | held running =>
    rw [cancelled] at running
    cases running
  | ended ended =>
    rw [cancelled] at ended
    cases ended
    exact .inl rfl
  | owed _ owes => exact .inr ⟨rfl, _, owes⟩
  | crashed failed =>
    rw [cancelled] at failed
    cases failed

/-- So it may come to be on record as stopped. -/
theorem Stands.advances_stopped (stands : Stands hazards books task id status)
    (cancelled : books.tasker.runner.status id = .cancelled) : status.Advances .stopped := by
  rcases stands.of_cancelled cancelled with rfl | ⟨rfl, -⟩
  · exact .stay _
  · exact .drop

/-- A task stands where it stood if its job does, who holds the job shows the same, and
who owes its record still does. -/
theorem Stands.keep (stands : Stands hazards books task id status)
    (same : books'.tasker.runner.status id = books.tasker.runner.status id)
    (work : ∀ job stage, books.work = .holding id job stage → stage.Shows status →
      ∃ job' stage', books'.work = .holding id job' stage' ∧ stage'.Shows status)
    (calls : ∀ index, (books.calls index).Owes task id →
      ∃ index', (books'.calls index').Owes task id) :
    Stands hazards books' task id status := by
  cases stands with
  | queued pending => exact .queued (same.trans pending)
  | held running holding shows =>
    obtain ⟨job', stage', holding, shows⟩ := work _ _ holding shows
    exact .held (same.trans running) holding shows
  | ended ended done => exact .ended (same.trans ended) done
  | owed cancelled owes =>
    obtain ⟨index', owes⟩ := calls _ owes
    exact .owed (same.trans cancelled) owes
  | crashed failed hazard => exact .crashed (same.trans failed) hazard

/-! ### One step -/

section Step

variable (sound : books.Sound) (carried : books.tasker.jobs[task]? = some id)
  (stands : Stands hazards books task id status) {tasker : Tasker}
  (upward : books.tasker.Upward tasker)

include sound carried

/-- A job that is put into the queue is another one. -/
theorem Sound.status_enqueue {job : TaskJob} (enqueues : Tasker.Enqueues job books.tasker tasker)
    (upward : books.tasker.Upward tasker) :
    tasker.runner.status id = books.tasker.runner.status id :=
  enqueues.status id <| Runner.nextId_ne (enqueues.lt_next upward)
    (sound.ledger.kept.numbered task id carried).2

/-- The task of the job in hand is the one that has it. -/
theorem Sound.held_iff {held : JobId} {job : TaskJob} {stage : JobStage}
    (holding : books.work = .holding held job stage) : held = id ↔ job.task = task := by
  have member := Runner.mem_entries_of_current (sound.current holding)
  have carries : books.tasker.jobs[job.task]? = some held := sound.ledger.kept.carried _ member
  constructor
  · rintro rfl
    rw [sound.inverse] at carries carried
    rw [carries] at carried
    exact Option.some.inj carried
  · rintro rfl
    rw [carries] at carried
    exact Option.some.inj carried

/-- The job of an accepted task in hand is that of the task, and no marker. -/
theorem Sound.own (accepted : books.Accepted task) {job : TaskJob} {stage : JobStage}
    (holding : books.work = .holding id job stage) : job.task = task ∧ job.kind ≠ .marker := by
  have isTask := (sound.held_iff carried holding).mp rfl
  have member := Runner.mem_entries_of_current (sound.current holding)
  refine ⟨isTask, (sound.kinds _ member).mp ?_⟩
  rw [isTask]
  exact accepted

include stands upward

/-- **A step of a call takes the status on record onward, and the record follows.** -/
theorem Stands.call {index : Nat} {stage : CallStage}
    (go : CallStage.Go (books.calls index) books.tasker tasker stage) : ∃ status',
      Stands hazards { books with tasker, calls := Function.update books.calls index stage }
        task id status' ∧
      Tasker.Follows hazards task books.tasker tasker status status' := by
  have owed := sound.owed index
  generalize now : books.calls index = stage' at go owed
  have stays : tasker.runner.status id = books.tasker.runner.status id →
      (stage'.Owes task id → stage.Owes task id) →
      tasker.standing task = books.tasker.standing task → ∃ status',
        Stands hazards { books with tasker, calls := Function.update books.calls index stage }
          task id status' ∧
        Tasker.Follows hazards task books.tasker tasker status status' := by
    intro same owes standing
    refine ⟨status, stands.keep same (fun job stage holding shows => ⟨job, stage, holding, shows⟩)
      fun other owing => ⟨other, ?_⟩, .same standing⟩
    by_cases isIndex : other = index
    · subst isIndex
      rw [now] at owing
      simp only [Function.update_self]
      exact owes owing
    · simp only [Function.update_of_ne isIndex]
      exact owing
  cases go with
  | apart ongoing apart =>
    exact stays (congrArg (Runner.status · id) apart.aside.runner) (fun owes => owes)
      (apart.stands task)
  | locate | ready | raise => exact stays rfl False.elim rfl
  | signal =>
    have aside := Tasker.aside_signalAll books.tasker
    exact stays (congrArg (Runner.status · id) aside.runner) False.elim
      (Tasker.standing_signalAll _ _)
  | @accept _ entry kind overrides date isTask going =>
    have registers := Tasker.accept_registers going entry kind overrides date
    have drawn := Tasker.drawn_accept going entry kind overrides date
    have isNew : books.tasker.jobs[books.tasker.drawTask.1]? = none :=
      sound.ledger.unseen (Ledger.next_task_new rfl drawn upward)
    have other : books.tasker.drawTask.1 ≠ task := by
      rintro rfl
      rw [isNew] at carried
      cases carried
    refine stays (sound.status_enqueue carried registers.toEnqueues upward) False.elim ?_
    rw [Tasker.standing_accept going, if_neg other]
  | clear =>
    have status_clear := Runner.status_clear books.tasker.runner id
    by_cases queued : id ∈ books.tasker.runner.queue.map Prod.fst
    · rw [if_pos queued] at status_clear
      have pending := (sound.ordered.pending id).mpr queued
      rw [stands.eq_pending pending]
      have owes : (Function.update books.calls index
          (.dropped books.tasker.runner.clear.1) index).Owes task id := by
        rw [Function.update_self]
        exact queued
      exact ⟨_, .owed status_clear owes, .same rfl⟩
    · rw [if_neg queued] at status_clear
      exact stays status_clear False.elim rfl
  | list =>
    refine stays rfl (fun dropped => List.mem_filterMap.mpr ⟨id, dropped, ?_⟩) rfl
    exact (sound.inverse task id).mp carried
  | @record recorded tasks _ date =>
    have standing := Tasker.standing_record books.tasker recorded task .stopped date
    by_cases isTask : recorded = task
    · subst isTask
      obtain ⟨other, carried', cancelled⟩ := owed recorded List.mem_cons_self
      rw [carried] at carried'
      cases carried'
      rw [if_pos rfl] at standing
      exact ⟨_, .ended cancelled rfl, .given (stands.advances_stopped cancelled) standing⟩
    · rw [if_neg isTask] at standing
      exact stays rfl (fun owes => List.mem_of_ne_of_mem (Ne.symm isTask) owes) standing
  | draw => exact stays rfl (fun owes => absurd owes List.not_mem_nil) rfl
  | @mark marker =>
    have registers := Tasker.enqueueMarker_registers books.tasker marker
    exact stays (sound.status_enqueue carried registers.toEnqueues upward) False.elim rfl

omit stands upward in
/-- A step of the worker leaves a task alone whose job it does not hold and does not take. -/
theorem Sound.work_other {stage : WorkStage}
    (go : WorkStage.Go books.work books.tasker tasker stage)
    (unheld : ∀ job now, books.work ≠ .holding id job now)
    (untaken : ∀ job now, stage ≠ .holding id job now) :
    tasker.runner.status id = books.tasker.runner.status id ∧
      tasker.standing task = books.tasker.standing task := by
  have other : ∀ {held : JobId} {job : TaskJob} {now : JobStage},
      books.work = .holding held job now → held ≠ id ∧ job.task ≠ task := by
    intro held job now holding
    have isOther : held ≠ id := by
      rintro rfl
      exact unheld job now holding
    exact ⟨isOther, fun isTask => isOther ((sound.held_iff carried holding).mpr isTask)⟩
  generalize now : books.work = stage' at go
  cases go with
  | apart _ apart => exact ⟨congrArg (Runner.status · id) apart.aside.runner, apart.stands task⟩
  | @take _ first job taken =>
    have isOther : first ≠ id := by
      rintro rfl
      exact untaken job .taken rfl
    exact ⟨(Runner.status_take taken id).trans (if_neg isOther), rfl⟩
  | reach | turn | pass | strand => exact ⟨rfl, rfl⟩
  | start | close =>
    exact ⟨rfl, (Tasker.standing_record ..).trans (if_neg (other now).2)⟩
  | finish | leave => exact ⟨(Runner.status_finish ..).trans (if_neg (other now).1), rfl⟩

omit carried upward in
/-- A job that is taken was pending, and its task is on record as pending. -/
theorem Stands.work_taken {job : TaskJob} (taken : books.tasker.runner.take.1 = some (id, job)) :
    Stands hazards { books with
        tasker := { books.tasker with runner := books.tasker.runner.take.2 }
        work := .holding id job .taken } task id status := by
  have pending : books.tasker.runner.status id = .pending :=
    (sound.ordered.pending id).mpr (List.mem_map_of_mem (Runner.mem_queue_of_taken taken))
  have running := Runner.status_take taken id
  rw [if_pos rfl] at running
  rw [stands.eq_pending pending]
  exact .held running rfl .taken

omit upward in
/-- The job in hand goes on, and its task with it, if what accepted tasks need is bound. -/
theorem Stands.work_held (bound : books.Bound) (accepted : books.Accepted task) {job : TaskJob}
    {now : JobStage} (holding : books.work = .holding id job now) {stage : WorkStage}
    (go : WorkStage.Go (.holding id job now) books.tasker tasker stage) : ∃ status',
      Stands hazards { books with tasker, work := stage } task id status' ∧
      Tasker.Follows hazards task books.tasker tasker status status' := by
  have running := sound.running holding
  obtain ⟨_, _, same, shows⟩ := stands.shows running
  cases holding.symm.trans same
  obtain ⟨rfl, isTask⟩ := sound.own carried accepted holding
  cases go with
  | apart _ apart =>
    have same := congrArg (Runner.status · id) apart.aside.runner
    exact ⟨status, .held (same.trans running) rfl shows, .same (apart.stands job.task)⟩
  | reach isMarker => exact absurd isMarker isTask
  | turn =>
    cases shows
    exact ⟨_, .held running rfl .turned, .same rfl⟩
  | pass =>
    cases shows
    exact ⟨_, .held running rfl .passed, .same rfl⟩
  | strand _ unbound =>
    obtain ⟨hasController, hasResource⟩ := bound.of_task sound holding isTask
    rcases unbound with none | none
    · rw [none] at hasController
      cases hasController
    · rw [none] at hasResource
      cases hasResource
  | start _ tasker date =>
    cases shows
    have standing := Tasker.standing_record books.tasker job.task job.task .running date
    rw [if_pos rfl] at standing
    exact ⟨_, .held running rfl .started, .given .begin standing⟩
  | @close _ _ _ status' _ closes tasker date =>
    have advances : status.Advances status' := by
      cases closes with
      | turned =>
        cases shows
        exact .drop
      | stranded => cases shows
      | started done =>
        cases shows
        exact .finish done
    have standing := Tasker.standing_record books.tasker job.task job.task status' date
    rw [if_pos rfl] at standing
    exact ⟨_, .held running rfl (.closed _), .given advances standing⟩
  | @finish _ _ _ outcome _ ends =>
    cases shows
    have finished := Runner.status_finish books.tasker.runner id outcome id
    rw [if_pos rfl] at finished
    rw [← ends]
    exact ⟨_, .ended finished (Runner.isDone_ofOutcome outcome), .same rfl⟩
  | leave isMarker => exact absurd isMarker isTask

omit upward in
/-- **So does a step of the worker, if what accepted tasks need is bound.** -/
theorem Stands.work (bound : books.Bound) (accepted : books.Accepted task) {stage : WorkStage}
    (go : WorkStage.Go books.work books.tasker tasker stage) : ∃ status',
      Stands hazards { books with tasker, work := stage } task id status' ∧
      Tasker.Follows hazards task books.tasker tasker status status' := by
  by_cases held : ∃ job now, books.work = .holding id job now
  · obtain ⟨job, now, holding⟩ := held
    rw [holding] at go
    exact stands.work_held sound carried bound accepted holding go
  · have unheld : ∀ job now, books.work ≠ .holding id job now := by simpa using held
    by_cases takes : ∃ job now, stage = .holding id job now
    · obtain ⟨job, now, rfl⟩ := takes
      generalize before : books.work = stage' at go unheld
      cases go with
      | take taken => exact ⟨status, stands.work_taken sound taken, .same rfl⟩
      | apart | reach | turn | pass | strand | start | close => exact absurd rfl (unheld _ _)
    · have untaken : ∀ job now, stage ≠ .holding id job now := by simpa using takes
      obtain ⟨same, standing⟩ := sound.work_other carried go unheld untaken
      refine ⟨status, stands.keep same (fun job now holding => ?_) fun index owes => ⟨index, owes⟩,
        .same standing⟩
      exact absurd holding (unheld job now)

end Step

/-- **Each step takes the status of an accepted task onward, and its record follows.** -/
theorem Stands.step (sound : books.Sound) (bound : books.Bound) (accepted : books.Accepted task)
    (carried : books.tasker.jobs[task]? = some id) (stands : Stands hazards books task id status)
    (step : Step hazards mover books books') (upward : books.tasker.Upward books'.tasker) :
    ∃ status', Stands hazards books' task id status' ∧
      Tasker.Follows hazards task books.tasker books'.tasker status status' := by
  cases step with
  | stay => exact ⟨status, stands, .same rfl⟩
  | @begin _ index stage unborn first =>
    refine ⟨status, stands.keep rfl (fun job stage holding shows => ⟨job, stage, holding, shows⟩)
      fun other owes => ⟨other, ?_⟩, .same rfl⟩
    by_cases isIndex : other = index
    · subst isIndex
      rw [unborn] at owes
      exact owes.elim
    · simp only [Function.update_of_ne isIndex]
      exact owes
  | aside isAside aside hazard =>
    refine ⟨status, stands.keep (congrArg (Runner.status · id) aside.runner)
      (fun job stage holding shows => ⟨job, stage, holding, shows⟩)
      (fun index owes => ⟨index, owes⟩), .aside hazard⟩
  | call go => exact stands.call sound carried upward go
  | work go => exact stands.work sound carried bound accepted go
  | @crash _ held job holding hazard =>
    have status_finish := Runner.status_finish books.tasker.runner held .failed id
    by_cases isId : held = id
    · subst isId
      obtain ⟨job', stage', holding', shows⟩ := stands.shows (sound.running holding)
      rw [holding] at holding'
      cases holding'
      cases shows
      rw [if_pos rfl] at status_finish
      exact ⟨_, .crashed status_finish hazard, .same rfl⟩
    · rw [if_neg isId] at status_finish
      refine ⟨status, stands.keep status_finish (fun job stage holding' => ?_)
        (fun index owes => ⟨index, owes⟩), .same rfl⟩
      rw [holding] at holding'
      cases holding'
      exact absurd rfl isId

/-! ## All tasks -/

/-- What is on record of tasks agrees with where their jobs stand. -/
structure Recorded (hazards : Hazards) (books : Books) : Prop where
  bound : books.Bound
  /-- A record, if there is one, says where the task stands, and is stamped if it is done. -/
  agrees : ∀ task id, books.Accepted task → books.tasker.jobs[task]? = some id → ∃ status,
    Stands hazards books task id status ∧
      ∀ record, books.tasker.standing task = some record → record = (status, status.isDone)
  known : ∀ task record, books.tasker.standing task = some record → books.Accepted task

theorem recorded_start (hazards : Hazards) (settings : TaskerSettings) (defaults : NodeDefaults) :
    Recorded hazards ⟨.new settings defaults, fun _ => .aside, .free⟩ where
  bound := fun _ => trivial
  agrees := by
    rintro task id ⟨index, accepted⟩
    cases accepted
  known := by
    intro task record recorded
    simp [Tasker.standing, Cache.standing, Cache.task?, Tasker.new, Engine.new, Cache.empty]
      at recorded

/-- A record that was not there before is that of a task that has just been accepted. -/
theorem Step.new_record (step : Step hazards mover books books')
    (spares : ∀ before after, hazards.aside before after → before.Spares after)
    (before : books.tasker.standing task = none) {record : TaskStatus × Bool}
    (after : books'.tasker.standing task = some record) :
    books'.Accepted task ∧ record = (.pending, false) := by
  have none : ∀ {P : Prop}, books'.tasker.standing task = none → P := by
    intro P none
    rw [none] at after
    cases after
  have given : ∀ {P : Prop} {other : TaskId} {status : TaskStatus} {now : Timestamp},
      books'.tasker = books.tasker.record other status now → P := by
    intro P other status now same
    refine none ?_
    rw [same, Tasker.standing_record]
    split
    · rename_i isTask
      rw [isTask, before]
      rfl
    · exact before
  cases step with
  | stay | begin | crash => exact none before
  | aside isAside aside hazard =>
    rcases (spares _ _ hazard).standing task with same | dropped
    · exact none (same.trans before)
    · exact none dropped
  | @call _ index tasker stage go =>
    generalize books.calls index = stage' at go
    cases go with
    | apart ongoing apart => exact none ((apart.stands task).trans before)
    | locate | ready | raise | clear | list | draw | mark => exact none before
    | signal => exact none ((Tasker.standing_signalAll _ task).trans before)
    | record => exact given rfl
    | @accept _ entry kind overrides date isTask going =>
      have standing := Tasker.standing_accept going entry kind overrides date task
      split at standing
      · rename_i isNew
        rw [isNew]
        refine ⟨⟨index, ?_⟩, Option.some.inj (after.symm.trans standing)⟩
        simp only [Function.update_self]
      · exact none (standing.trans before)
  | @work _ tasker stage go =>
    generalize books.work = stage' at go
    cases go with
    | apart begun apart => exact none ((apart.stands task).trans before)
    | take | reach | turn | pass | strand | finish | leave => exact none before
    | start => exact given rfl
    | close => exact given rfl

/-- What was accepted stays accepted. -/
theorem Sound.accepted_persists (sound : books.Sound) (step : Step hazards mover books books')
    (upward : books.tasker.Upward books'.tasker) (accepted : books.Accepted task) :
    books'.Accepted task := by
  rcases sound.cases step upward with quiet | ⟨job, admits⟩
  · exact (quiet.accepted task).mpr accepted
  · exact (admits.accepted task).mpr (.inr accepted)

/-- A task that is accepted after a step was accepted before it, with the same job, or has
just been posted. -/
theorem Sound.accepted_cases (sound : books.Sound) (step : Step hazards mover books books')
    (upward : books.tasker.Upward books'.tasker) (accepted' : books'.Accepted task)
    (carried' : books'.tasker.jobs[task]? = some id) :
    (books.Accepted task ∧ books.tasker.jobs[task]? = some id) ∨
      (books'.tasker.runner.status id = .pending ∧
        books'.tasker.standing task = some (.pending, false)) := by
  by_cases accepted : books.Accepted task
  · obtain ⟨old, carried⟩ := (sound.returned task).mp (.inl accepted)
    have same := (sound.jobs_persist step upward carried).symm.trans carried'
    cases same
    exact .inl ⟨accepted, carried⟩
  · rcases sound.cases step upward with quiet | ⟨job, admits⟩
    · exact absurd ((quiet.accepted task).mp accepted') accepted
    · obtain ⟨rfl, isTask⟩ := ((admits.accepted task).mp accepted').resolve_right accepted
      have same := admits.registers.job_self.symm.trans carried'
      cases same
      refine .inr ⟨?_, admits.recorded isTask⟩
      rw [admits.registers.runner, Runner.status_post, if_pos rfl]

/-- **Every step keeps what is on record in agreement with where jobs stand.** -/
theorem Recorded.step (recorded : books.Recorded hazards) (sound : books.Sound)
    (spares : ∀ before after, hazards.aside before after → before.Spares after)
    (step : Step hazards mover books books') (upward : books.tasker.Upward books'.tasker) :
    books'.Recorded hazards where
  bound := recorded.bound.step step spares
  agrees := by
    intro task id accepted' carried'
    rcases sound.accepted_cases step upward accepted' carried' with
      ⟨accepted, carried⟩ | ⟨pending, recorded⟩
    · obtain ⟨status, stands, agrees⟩ := recorded.agrees task id accepted carried
      obtain ⟨status', stands, follows⟩ :=
        stands.step sound recorded.bound accepted carried step upward
      exact ⟨status', stands, follows.agrees spares agrees⟩
    · refine ⟨.pending, .queued pending, fun record standing => ?_⟩
      rw [recorded] at standing
      exact (Option.some.inj standing).symm
  known := by
    intro task record after
    cases before : books.tasker.standing task with
    | none => exact (step.new_record spares before after).1
    | some old => exact sound.accepted_persists step upward (recorded.known task old before)

end Books

end ScreenPilot
