import ScreenPilot.Proofs.Tasker.Bookkeeping
import ScreenPilot.Proofs.Tasker.Hazards
import ScreenPilot.Proofs.Tasker.Stages

/-!
# The books of a session

The books of a session are its tasker with the stages of those who work on it; they
say more than its ledger, and each of their steps is one of the ledger they contain
(`Books.Step.ledger`). They are sound if the ledger is, the two tables of tasks and
jobs are inverse to each other, and the tasks in them are those that calls have
returned (`Books.Sound`).

What the steps of sound books preserve under hazards, sessions preserve that lead to
others under them (`Session.Tallies.leads`).
-/

set_option autoImplicit false

namespace ScreenPilot

open Activity

/-! ## Tables -/

namespace Tasker

variable {before after : Tasker} {job : TaskJob}

/-- A job is put into the queue and into both tables; nothing else is touched but the
records. -/
structure Registers (job : TaskJob) (before after : Tasker) : Prop
    extends Enqueues job before after where
  tasks : after.tasks = before.tasks.insert before.runner.nextId job.task
  stopped : after.engine.stopped = before.engine.stopped
  controller : after.controller = before.controller
  resource : after.resource = before.resource

theorem accept_registers {tasker : Tasker} (going : tasker.stopping = false) (entry : String)
    (kind : TaskKind) (overrides : Graph) (now : Timestamp) :
    Registers ⟨tasker.drawTask.1, entry, kind, overrides⟩ tasker
      (tasker.accept entry kind overrides now).2 := by
  unfold accept
  rw [going, if_neg Bool.false_ne_true]
  exact ⟨⟨rfl, rfl, rfl⟩, rfl, rfl, rfl, rfl⟩

theorem drawn_accept {tasker : Tasker} (going : tasker.stopping = false) (entry : String)
    (kind : TaskKind) (overrides : Graph) (now : Timestamp) :
    (tasker.accept entry kind overrides now).2.engine.ids.task =
      tasker.engine.ids.task + 1 := by
  unfold accept
  rw [going, if_neg Bool.false_ne_true]
  rfl

/-- A task that is accepted is on record as pending. -/
theorem standing_accept {tasker : Tasker} (going : tasker.stopping = false) (entry : String)
    (kind : TaskKind) (overrides : Graph) (now : Timestamp) (task : TaskId) :
    (tasker.accept entry kind overrides now).2.standing task =
      if tasker.drawTask.1 = task then some (.pending, false) else tasker.standing task := by
  unfold accept
  rw [going, if_neg Bool.false_ne_true]
  exact Cache.standing_putTask _ _ _

theorem enqueueMarker_registers (tasker : Tasker) (marker : TaskId) :
    Registers ⟨marker, "", .marker, .empty⟩ tasker (tasker.enqueueMarker marker) :=
  ⟨⟨rfl, rfl, rfl⟩, rfl, rfl, rfl, rfl⟩

/-- The two tables of a tasker are inverse to each other. -/
def Inverse (tasker : Tasker) : Prop :=
  ∀ (task : TaskId) (id : JobId), tasker.jobs[task]? = some id ↔ tasker.tasks[id]? = some task

/-- A new task with a new job keeps the tables inverse. -/
theorem Inverse.register (inverse : before.Inverse) (kept : before.Kept)
    (registers : Registers job before after) (upward : before.Upward after)
    (isNew : before.jobs[job.task]? = none) : after.Inverse := by
  have nextNew : before.tasks[before.runner.nextId]? = none := by
    rw [Option.eq_none_iff_forall_ne_some]
    intro task carried
    have given := (kept.numbered _ _ ((inverse _ _).mpr carried)).2
    exact Runner.nextId_ne (registers.lt_next upward) given rfl
  have jobs : ∀ task, after.jobs[task]? =
      if job.task = task then some before.runner.nextId else before.jobs[task]? := by
    intro task
    rw [registers.jobs, Std.ExtTreeMap.getElem?_insert]
    simp only [Std.compare_eq_iff_eq]
    rfl
  have tasks : ∀ id, after.tasks[id]? =
      if before.runner.nextId = id then some job.task else before.tasks[id]? := by
    intro id
    rw [registers.tasks, Std.ExtTreeMap.getElem?_insert]
    simp only [Std.compare_eq_iff_eq]
  intro task id
  rw [jobs, tasks]
  split
  · rename_i isTask
    split
    · rename_i isNext
      rw [isTask, isNext]
      exact iff_of_true rfl rfl
    · rename_i notNext
      rw [← inverse, ← isTask, isNew]
      exact iff_of_false (fun same => notNext (Option.some.inj same)) nofun
  · rename_i notTask
    split
    · rename_i isNext
      rw [inverse, ← isNext, nextNew]
      exact iff_of_false nofun fun same => notTask (Option.some.inj same)
    · exact inverse task id

end Tasker

/-! ## Books -/

/-- A tasker and how far those who work on it have come. -/
structure Books where
  tasker : Tasker
  /-- The stage of each call. -/
  calls : Nat → CallStage
  work : WorkStage

/-- A call has returned no task. -/
def CallStage.Silent (stage : CallStage) : Prop :=
  ∀ task, stage ≠ .accepted task ∧ stage ≠ .marked task

/-- A call that is not over has returned nothing. -/
theorem CallStage.silent_of_ongoing {stage : CallStage} (ongoing : stage.isOver = false) :
    stage.Silent := by
  intro task
  constructor
  · rintro rfl
    cases ongoing
  · rintro rfl
    cases ongoing

/-- What a call has yet to put on record has been dropped. -/
def CallStage.Owed (tasker : Tasker) : CallStage → Prop
  | .dropped jobs => ∀ id ∈ jobs, tasker.runner.status id = .cancelled
  | .recording tasks => ∀ task ∈ tasks, ∃ id, tasker.jobs[task]? = some id ∧
    tasker.runner.status id = .cancelled
  | _ => True

theorem CallStage.Owed.persists {before after : Tasker} {stage : CallStage}
    (owed : stage.Owed before)
    (jobs : ∀ (task : TaskId) (id : JobId), before.jobs[task]? = some id →
      after.jobs[task]? = some id)
    (cancelled : ∀ id, before.runner.status id = .cancelled →
      after.runner.status id = .cancelled) : stage.Owed after := by
  cases stage with
  | dropped dropped => exact fun id member => cancelled id (owed id member)
  | recording tasks =>
    intro task member
    obtain ⟨id, carried, isCancelled⟩ := owed task member
    exact ⟨id, jobs task id carried, cancelled id isCancelled⟩
  | aside | asking | located | ready | accepted | called | raised | signalled | drawn | marked =>
    trivial

/-- What a ledger says of a stage. -/
def CallStage.phase : CallStage → StopPhase
  | .aside | .asking | .located | .ready | .accepted _ => .other
  | .called => .called
  | .raised | .signalled => .raised
  | .dropped _ | .recording _ => .cleared
  | .drawn marker => .drawn marker
  | .marked marker => .marked marker

def WorkStage.phase : WorkStage → WorkPhase
  | .free => .free
  | .holding id job _ => .holding id job

namespace Books

/-- The ledger that the books contain. -/
def ledger (books : Books) : Ledger where
  tasker := books.tasker
  stops := fun index => (books.calls index).phase
  work := books.work.phase

/-- One step of the books, under hazards. -/
inductive Step (hazards : Hazards) : Mover → Books → Books → Prop where
  | stay (mover : Mover) (books : Books) : Step hazards mover books books
  | begin {books : Books} {index : Nat} {stage : CallStage}
      (unborn : books.calls index = .aside) (first : stage = .asking ∨ stage = .called) :
      Step hazards .caller books { books with calls := Function.update books.calls index stage }
  | aside {books : Books} {index : Nat} {tasker : Tasker} (isAside : books.calls index = .aside)
      (aside : books.tasker.Aside tasker) (hazard : hazards.aside books.tasker tasker) :
      Step hazards (.call index) books { books with tasker }
  | call {books : Books} {index : Nat} {tasker : Tasker} {stage : CallStage}
      (go : CallStage.Go (books.calls index) books.tasker tasker stage) :
      Step hazards (.call index) books
        { books with tasker, calls := Function.update books.calls index stage }
  | work {books : Books} {tasker : Tasker} {stage : WorkStage}
      (go : WorkStage.Go books.work books.tasker tasker stage) :
      Step hazards .worker books { books with tasker, work := stage }
  /-- The graph of the task in hand cannot be had. -/
  | crash {books : Books} {id : JobId} {job : TaskJob}
      (holding : books.work = .holding id job .started) (hazard : hazards.crash) :
      Step hazards .worker books
        { books with
          tasker := { books.tasker with runner := books.tasker.runner.finish id .failed }
          work := .free }

variable {hazards : Hazards} {mover : Mover} {books books' : Books}

/-- In one step a call stays where it is, begins, or goes on by itself. -/
theorem Step.call_cases (step : Step hazards mover books books') (index : Nat) :
    books'.calls index = books.calls index ∨
      (books.calls index = .aside ∧
        (books'.calls index = .asking ∨ books'.calls index = .called)) ∨
      mover = .call index ∧
        CallStage.Go (books.calls index) books.tasker books'.tasker (books'.calls index) := by
  cases step with
  | stay | aside | work | crash => exact .inl rfl
  | @begin _ other stage unborn first =>
    by_cases isOther : index = other
    · subst isOther
      refine .inr (.inl ⟨unborn, ?_⟩)
      simp only [Function.update_self]
      exact first
    · exact .inl (Function.update_of_ne isOther _ _)
  | @call _ other tasker stage go =>
    by_cases isOther : index = other
    · subst isOther
      refine .inr (.inr ⟨rfl, ?_⟩)
      simp only [Function.update_self]
      exact go
    · exact .inl (Function.update_of_ne isOther _ _)

/-- The phases of calls of which one has come to another stage. -/
theorem phase_update (calls : Nat → CallStage) (index : Nat) (stage : CallStage) :
    (fun other => (Function.update calls index stage other).phase) =
      Function.update (fun other => (calls other).phase) index stage.phase :=
  Function.comp_update CallStage.phase calls index stage

/-- **Each step of the books is one of their ledger.** -/
theorem Step.ledger (step : Step hazards mover books books') :
    books.ledger.Step mover books'.ledger := by
  cases step with
  | stay => exact .aside (.refl _)
  | @begin _ index stage unborn first =>
    have other : books.ledger.stops index = .other := congrArg CallStage.phase unborn
    simp only [Books.ledger, phase_update]
    rcases first with rfl | rfl
    · rw [Function.update_eq_self_iff.mpr other.symm]
      exact .aside (.refl _)
    · exact .begin index other
  | aside isAside aside => exact .aside aside
  | @call _ index tasker stage go =>
    simp only [Books.ledger, phase_update]
    generalize now : books.calls index = stage' at go
    have phase : books.ledger.stops index = stage'.phase := congrArg CallStage.phase now
    have stays : stage.phase = stage'.phase → ∀ tasker, books.tasker.Aside tasker →
        books.ledger.Step (.call index)
          ⟨tasker, Function.update books.ledger.stops index stage.phase, books.work.phase⟩ := by
      intro same tasker aside
      rw [Function.update_eq_self_iff.mpr (same.trans phase.symm)]
      exact .aside aside
    have goes : ∀ tasker, StopPhase.Go stage'.phase books.tasker tasker stage.phase →
        books.ledger.Step (.call index)
          ⟨tasker, Function.update books.ledger.stops index stage.phase, books.work.phase⟩ := by
      intro tasker go
      rw [← phase] at go
      exact .stop go
    cases go with
    | apart ongoing apart => exact stays rfl _ apart.aside
    | locate | ready | list => exact stays rfl _ (.refl _)
    | @accept _ entry kind overrides date isTask going =>
      have registers := Tasker.accept_registers going entry kind overrides date
      have drawn := Tasker.drawn_accept going entry kind overrides date
      rw [Function.update_eq_self_iff.mpr phase.symm]
      exact Ledger.Step.accept isTask going rfl drawn registers.toEnqueues
    | raise => exact goes _ (.raise _)
    | signal => exact stays rfl _ (Tasker.aside_signalAll _)
    | clear => exact goes _ (.clear _)
    | record => exact stays rfl _ (Tasker.aside_record _ _ _ _)
    | draw => exact goes _ (.draw _)
    | mark => exact goes _ (.mark _ _)
  | @work _ tasker stage go =>
    generalize now : books.work = stage' at go
    have phase : books.ledger.work = stage'.phase := congrArg WorkStage.phase now
    have goes : WorkPhase.Go stage'.phase books.tasker tasker stage.phase →
        books.ledger.Step .worker ⟨tasker, books.ledger.stops, stage.phase⟩ := by
      intro go
      rw [← phase] at go
      exact .work go
    refine goes ?_
    cases go with
    | apart _ apart => exact .aside apart.aside
    | take taken => exact .take taken
    | reach isMarker => exact .reach isMarker
    | turn | pass | strand => exact .aside (.refl _)
    | start => exact .aside (Tasker.aside_record _ _ _ _)
    | close => exact .aside (Tasker.aside_record _ _ _ _)
    | finish isTask => exact .finish fun isMarker => absurd isMarker isTask
    | leave => exact .finish fun _ => nofun
  | @crash _ id job holding =>
    have phase : books.ledger.work = .holding id job := congrArg WorkStage.phase holding
    have go : WorkPhase.Go books.ledger.work books.tasker
        { books.tasker with runner := books.tasker.runner.finish id .failed } .free := by
      rw [phase]
      exact .finish fun _ => nofun
    exact .work go

/-! ### Who is in the books -/

/-- A call has returned the task as accepted. -/
def Accepted (books : Books) (task : TaskId) : Prop :=
  ∃ index, books.calls index = .accepted task

/-- A call has returned the task, as accepted or as a marker. -/
def Returned (books : Books) (task : TaskId) : Prop :=
  books.Accepted task ∨ ∃ index, books.calls index = .marked task

/-- What some call has come to, if one call comes to another stage. -/
theorem exists_update {calls : Nat → CallStage} {index : Nat} {stage final : CallStage}
    (notYet : calls index ≠ final) :
    (∃ other, Function.update calls index stage other = final) ↔
      stage = final ∨ ∃ other, calls other = final := by
  constructor
  · rintro ⟨other, held⟩
    by_cases isIndex : other = index
    · rw [isIndex, Function.update_self] at held
      exact .inl held
    · rw [Function.update_of_ne isIndex] at held
      exact .inr ⟨other, held⟩
  · rintro (held | ⟨other, held⟩)
    · exact ⟨index, by rwa [Function.update_self]⟩
    · have notIndex : other ≠ index := by
        rintro rfl
        exact notYet held
      exact ⟨other, by rwa [Function.update_of_ne notIndex]⟩

/-- The jobs in the books are those of the tasks that calls have returned. -/
structure Sound (books : Books) : Prop where
  ledger : books.ledger.Sound
  inverse : books.tasker.Inverse
  returned : ∀ task, books.Returned task ↔ ∃ id, books.tasker.jobs[task]? = some id
  kinds : ∀ entry ∈ books.tasker.runner.entries,
    books.Accepted entry.2.task ↔ entry.2.kind ≠ .marker
  owed : ∀ index, (books.calls index).Owed books.tasker

theorem sound_start (settings : TaskerSettings) (defaults : NodeDefaults) :
    Sound ⟨.new settings defaults, fun _ => .aside, .free⟩ where
  ledger := Ledger.sound_start settings defaults
  inverse := by
    intro task id
    simp [Tasker.new]
  returned := by
    intro task
    simp [Returned, Accepted, Tasker.new]
  kinds := nofun
  owed := fun _ => trivial

/-- The job that the worker holds is the current one. -/
theorem Sound.current (sound : books.Sound) {id : JobId} {job : TaskJob} {stage : JobStage}
    (holding : books.work = .holding id job stage) :
    books.tasker.runner.current = some (id, job) := by
  have held : books.tasker.runner.current = books.work.phase.held := sound.ledger.held
  rw [held, holding]
  rfl

theorem Sound.ordered (sound : books.Sound) : books.tasker.runner.Ordered :=
  sound.ledger.kept.ordered

/-- The job that the worker holds is running. -/
theorem Sound.running (sound : books.Sound) {id : JobId} {job : TaskJob} {stage : JobStage}
    (holding : books.work = .holding id job stage) : books.tasker.runner.status id = .running := by
  rw [sound.ordered.running, sound.current holding]
  rfl

/-! ### Steps that preserve -/

/-- **A job that is done stands where it stood.** -/
theorem Sound.status_of_done (sound : books.Sound) (step : Step hazards mover books books')
    (upward : books.tasker.Upward books'.tasker) {id : JobId}
    (done : (books.tasker.runner.status id).isDone = true) :
    books'.tasker.runner.status id = books.tasker.runner.status id := by
  have ordered := sound.ordered
  have posted : ∀ {job : TaskJob}, Tasker.Enqueues job books.tasker books'.tasker →
      books'.tasker.runner.status id = books.tasker.runner.status id := by
    intro job enqueues
    rw [enqueues.runner]
    exact Runner.status_post_of_done ordered done (enqueues.lt_next upward) job
  have finished : ∀ {job : TaskJob} {stage : JobStage} {ended : JobId} (outcome : JobOutcome),
      books.work = .holding ended job stage →
      (books.tasker.runner.finish ended outcome).status id = books.tasker.runner.status id := by
    intro job stage ended outcome holding
    refine Runner.status_finish_of_done ordered done ?_ outcome
    rw [sound.current holding]
    rfl
  cases step with
  | stay | begin => rfl
  | aside isAside aside => rw [aside.runner]
  | @call _ index tasker stage go =>
    generalize books.calls index = stage' at go
    cases go with
    | apart ongoing apart => exact congrArg (Runner.status · id) apart.aside.runner
    | locate | ready | raise | signal | list | record | draw => rfl
    | accept isTask going => exact posted (Tasker.accept_registers going _ _ _ _).toEnqueues
    | clear => exact Runner.status_clear_of_done ordered done
    | mark => exact posted (Tasker.enqueueMarker_enqueues _ _)
  | @work _ tasker stage go =>
    generalize holding : books.work = stage' at go
    cases go with
    | apart _ apart => exact congrArg (Runner.status · id) apart.aside.runner
    | take => exact Runner.status_take_of_done ordered done
    | reach | turn | pass | strand | start | close => rfl
    | finish => exact finished _ holding
    | leave => exact finished _ holding
  | crash holding => exact finished _ holding

/-- Nothing is put into the queue, and no call returns anything. -/
structure Quiet (before after : Books) : Prop where
  jobs : after.tasker.jobs = before.tasker.jobs
  tasks : after.tasker.tasks = before.tasker.tasks
  fewer : ∀ entry ∈ after.tasker.runner.entries, entry ∈ before.tasker.runner.entries
  accepted : ∀ task, after.Accepted task ↔ before.Accepted task
  marked : ∀ task, (∃ index, after.calls index = .marked task) ↔
    ∃ index, before.calls index = .marked task

/-- A job is put into the queue by the call that returns its task. -/
structure Admits (job : TaskJob) (before after : Books) : Prop where
  registers : Tasker.Registers job before.tasker after.tasker
  isNew : before.tasker.jobs[job.task]? = none
  accepted : ∀ task, after.Accepted task ↔
    (job.task = task ∧ job.kind ≠ .marker) ∨ before.Accepted task
  marked : ∀ task, (∃ index, after.calls index = .marked task) ↔
    (job.task = task ∧ job.kind = .marker) ∨ ∃ index, before.calls index = .marked task
  recorded : job.kind ≠ .marker → after.tasker.standing job.task = some (.pending, false)

theorem quiet_of_same (calls : books'.calls = books.calls)
    (jobs : books'.tasker.jobs = books.tasker.jobs)
    (tasks : books'.tasker.tasks = books.tasker.tasks)
    (fewer : ∀ entry ∈ books'.tasker.runner.entries, entry ∈ books.tasker.runner.entries) :
    Quiet books books' where
  jobs := jobs
  tasks := tasks
  fewer := fewer
  accepted := by
    intro task
    rw [Accepted, Accepted, calls]
  marked := by
    intro task
    rw [calls]

/-- A call that has returned nothing goes on and returns nothing. -/
theorem quiet_of_silent {index : Nat} {tasker : Tasker} {stage : CallStage}
    (before : (books.calls index).Silent) (after : stage.Silent)
    (jobs : tasker.jobs = books.tasker.jobs) (tasks : tasker.tasks = books.tasker.tasks)
    (fewer : ∀ entry ∈ tasker.runner.entries, entry ∈ books.tasker.runner.entries) :
    Quiet books { books with tasker, calls := Function.update books.calls index stage } where
  jobs := jobs
  tasks := tasks
  fewer := fewer
  accepted := fun task =>
    (exists_update (before task).1).trans (or_iff_right (after task).1)
  marked := fun task =>
    (exists_update (before task).2).trans (or_iff_right (after task).2)

/-- **A step puts one job into the queue for the call that returns its task, or none.** -/
theorem Sound.cases (sound : books.Sound) (step : Step hazards mover books books')
    (upward : books.tasker.Upward books'.tasker) :
    Quiet books books' ∨ ∃ job, Admits job books books' := by
  have same : ∀ {runner : Runner TaskJob}, runner = books.tasker.runner →
      ∀ entry ∈ runner.entries, entry ∈ books.tasker.runner.entries := by
    rintro _ rfl entry member
    exact member
  have finished : ∀ {id : JobId} {job : TaskJob} {stage : JobStage} (outcome : JobOutcome),
      books.work = .holding id job stage →
      ∀ entry ∈ (books.tasker.runner.finish id outcome).entries,
        entry ∈ books.tasker.runner.entries := by
    intro id job stage outcome holding entry member
    rw [Runner.entries_finish (sound.current holding) outcome]
    exact List.mem_cons_of_mem _ member
  cases step with
  | stay => exact .inl (quiet_of_same rfl rfl rfl (same rfl))
  | @begin _ index stage unborn first =>
    have before : (books.calls index).Silent := by
      rw [unborn]
      exact fun task => ⟨nofun, nofun⟩
    have after : stage.Silent := by
      rcases first with rfl | rfl <;> exact CallStage.silent_of_ongoing rfl
    exact .inl (quiet_of_silent before after rfl rfl (same rfl))
  | aside isAside aside =>
    exact .inl (quiet_of_same rfl aside.jobs aside.tasks (same aside.runner))
  | @call _ index tasker stage go =>
    have before := CallStage.silent_of_ongoing go.ongoing
    generalize now : books.calls index = stage' at go
    cases go with
    | apart goesOn apart =>
      exact .inl (quiet_of_silent before (CallStage.silent_of_ongoing goesOn) apart.aside.jobs
        apart.aside.tasks (same apart.aside.runner))
    | locate | ready | raise | list | record | draw =>
      exact .inl (quiet_of_silent before (CallStage.silent_of_ongoing rfl) rfl rfl (same rfl))
    | signal =>
      have aside := Tasker.aside_signalAll books.tasker
      exact .inl (quiet_of_silent before (CallStage.silent_of_ongoing rfl) rfl rfl
        (same aside.runner))
    | clear =>
      exact .inl (quiet_of_silent before (CallStage.silent_of_ongoing rfl) rfl rfl
        fun _ => Runner.mem_entries_of_clear)
    | @accept _ entry kind overrides date isTask going =>
      have drawn := Tasker.drawn_accept going entry kind overrides date
      refine .inr ⟨⟨books.tasker.drawTask.1, entry, kind, overrides⟩,
        Tasker.accept_registers going entry kind overrides date,
        sound.ledger.unseen (Ledger.next_task_new rfl drawn upward), fun task => ?_, fun task => ?_,
        fun _ => ?_⟩
      · refine (exists_update (before task).1).trans (or_congr_left ?_)
        simp [isTask]
      · refine (exists_update (before task).2).trans (or_congr_left ?_)
        simp [isTask]
      · exact (Tasker.standing_accept going entry kind overrides date _).trans (if_pos rfl)
    | @mark marker =>
      have drawn : books.ledger.stops index = .drawn marker := congrArg CallStage.phase now
      refine .inr ⟨⟨marker, "", .marker, .empty⟩, Tasker.enqueueMarker_registers _ marker,
        (sound.ledger.drawn index marker drawn).1, fun task => ?_, fun task => ?_,
        fun isTask => absurd rfl isTask⟩
      · refine (exists_update (before task).1).trans (or_congr_left ?_)
        simp
      · refine (exists_update (before task).2).trans (or_congr_left ?_)
        simp
  | @work _ tasker stage go =>
    generalize holding : books.work = stage' at go
    cases go with
    | apart _ apart =>
      exact .inl (quiet_of_same rfl apart.aside.jobs apart.aside.tasks (same apart.aside.runner))
    | take =>
      have idle : books.tasker.runner.current = none := by
        have held : books.tasker.runner.current = books.work.phase.held := sound.ledger.held
        rw [held, holding]
        rfl
      refine .inl (quiet_of_same rfl rfl rfl fun entry member => ?_)
      rw [← Runner.entries_take idle]
      exact member
    | reach | turn | pass | strand | start | close =>
      exact .inl (quiet_of_same rfl rfl rfl (same rfl))
    | finish => exact .inl (quiet_of_same rfl rfl rfl (finished _ holding))
    | leave => exact .inl (quiet_of_same rfl rfl rfl (finished _ holding))
  | crash holding => exact .inl (quiet_of_same rfl rfl rfl (finished _ holding))

theorem Sound.jobs_persist (sound : books.Sound) (step : Step hazards mover books books')
    (upward : books.tasker.Upward books'.tasker) {task : TaskId} {id : JobId}
    (carried : books.tasker.jobs[task]? = some id) : books'.tasker.jobs[task]? = some id :=
  (sound.ledger.change step.ledger upward).job_persists carried

/-- What calls have yet to put on record has still been dropped. -/
theorem Sound.owed_step (sound : books.Sound) (step : Step hazards mover books books')
    (upward : books.tasker.Upward books'.tasker) (index : Nat) :
    (books'.calls index).Owed books'.tasker := by
  have persists : ∀ {stage : CallStage}, stage.Owed books.tasker → stage.Owed books'.tasker := by
    intro stage owed
    refine owed.persists (fun _ _ => sound.jobs_persist step upward) fun id cancelled => ?_
    rw [sound.status_of_done step upward (by rw [cancelled]; rfl), cancelled]
  have old := persists (sound.owed index)
  rcases step.call_cases index with same | ⟨-, first⟩ | ⟨-, go⟩
  · rw [same]
    exact old
  · rcases first with first | first
    · rw [first]
      trivial
    · rw [first]
      trivial
  · generalize books.calls index = stage at go old
    generalize books'.calls index = stage' at go ⊢
    generalize books'.tasker = after at go old ⊢
    cases go with
    | apart => exact old
    | locate | ready | accept | raise | signal | draw | mark => trivial
    | clear =>
      intro id member
      exact (Runner.status_clear _ _).trans (if_pos member)
    | list =>
      intro task member
      obtain ⟨id, dropped, carried⟩ := List.mem_filterMap.mp member
      exact ⟨id, (sound.inverse task id).mpr carried, old id dropped⟩
    | record => exact fun task member => old task (List.mem_cons_of_mem _ member)

/-- **Every step keeps the books sound.** -/
theorem Sound.step (sound : books.Sound) (step : Step hazards mover books books')
    (upward : books.tasker.Upward books'.tasker) : books'.Sound where
  ledger := sound.ledger.step step.ledger upward
  inverse := by
    rcases sound.cases step upward with quiet | ⟨job, admits⟩
    · intro task id
      rw [quiet.jobs, quiet.tasks]
      exact sound.inverse task id
    · exact sound.inverse.register sound.ledger.kept admits.registers upward admits.isNew
  returned := by
    intro task
    rcases sound.cases step upward with quiet | ⟨job, admits⟩
    · rw [Returned, quiet.accepted, quiet.marked, quiet.jobs]
      exact sound.returned task
    · have old := sound.returned task
      rw [Returned] at old
      rw [Returned, admits.accepted, admits.marked]
      by_cases isJob : job.task = task
      · refine iff_of_true ?_ ⟨_, isJob ▸ admits.registers.job_self⟩
        by_cases isMarker : job.kind = .marker
        · exact .inr (.inl ⟨isJob, isMarker⟩)
        · exact .inl (.inl ⟨isJob, isMarker⟩)
      · rw [admits.registers.job_of_ne (Ne.symm isJob), ← old]
        simp only [isJob, false_and, false_or]
  kinds := by
    rcases sound.cases step upward with quiet | ⟨job, admits⟩
    · intro entry member
      rw [quiet.accepted]
      exact sound.kinds entry (quiet.fewer entry member)
    · intro entry member
      rw [admits.registers.entries, List.mem_append, List.mem_singleton] at member
      rw [admits.accepted]
      rcases member with member | rfl
      · have other : job.task ≠ entry.2.task := by
          intro same
          have carried := sound.ledger.kept.carried entry member
          rw [← same] at carried
          cases admits.isNew.symm.trans carried
        simp only [other, false_and, false_or]
        exact sound.kinds entry member
      · have unknown : ¬ books.Accepted job.task := by
          intro accepted
          obtain ⟨id, carried⟩ := (sound.returned job.task).mp (.inl accepted)
          cases admits.isNew.symm.trans carried
        simp only [unknown, or_false, true_and]
  owed := sound.owed_step step upward

end Books

/-! ## Sessions and their books -/

/-- What is left of a call in a stage. -/
def Call.At : Call → CallStage → Prop
  | .posting rest, stage => stage.isPost = true ∧ rest.Obeys CallStage.Go CallStage.PostOver stage
  | .stopping rest, stage => rest.Obeys CallStage.Go CallStage.StopOver stage
  | .aside rest, stage => stage = .aside ∧ rest.Steps Tasker.Aside

namespace Session

/-- A session agrees with its books. -/
structure Tallies (session : Session) (books : Books) : Prop where
  tasker : books.tasker = session.tasker
  calls : ∀ (index : Nat) (call : Call), session.calls[index]? = some call →
    call.At (books.calls index)
  later : ∀ index, session.calls.length ≤ index → books.calls index = .aside
  worker : books.work.At session.worker

theorem tallies_start (settings : TaskerSettings) (defaults : NodeDefaults) :
    (start settings defaults).Tallies ⟨.new settings defaults, fun _ => .aside, .free⟩ where
  tasker := rfl
  calls := by simp [start]
  later := fun _ _ => rfl
  worker := .inl ⟨false, rfl⟩

variable {hazards : Hazards} {session session' : Session} {books : Books} {mover : Mover}

/-! ### What calls have returned -/

/-- A call that is over in the books has returned what the books say. -/
theorem Tallies.ended (tallies : session.Tallies books) {index : Nat}
    (isOver : (books.calls index).isOver = true) (notAside : books.calls index ≠ .aside) :
    (∃ outcome, session.calls[index]? = some (.posting (.done outcome)) ∧
      CallStage.PostOver (books.calls index) outcome) ∨
    ∃ marker, session.calls[index]? = some (.stopping (.done marker)) ∧
      CallStage.StopOver (books.calls index) marker := by
  cases found : session.calls[index]? with
  | none => exact absurd (tallies.later index (List.getElem?_eq_none_iff.mp found)) notAside
  | some call =>
    have isAt := tallies.calls index call found
    cases call with
    | posting rest =>
      obtain ⟨outcome, rfl, ended⟩ := CallStage.done_of_isOver isOver isAt.2
      exact .inl ⟨outcome, rfl, ended⟩
    | stopping rest =>
      obtain ⟨marker, rfl, ended⟩ := CallStage.done_of_isOver isOver isAt
      exact .inr ⟨marker, rfl, ended⟩
    | aside rest => exact absurd isAt.1 notAside

/-- The books know the tasks that calls have returned as accepted. -/
theorem Tallies.accepted (tallies : session.Tallies books) {index : Nat} {task : TaskId} :
    session.calls[index]? = some (.posting (.done (.ok task))) ↔
      books.calls index = .accepted task := by
  constructor
  · intro found
    exact (tallies.calls index _ found).2
  · intro isAccepted
    rcases tallies.ended (by rw [isAccepted]; rfl) (by rw [isAccepted]; exact nofun) with
      ⟨outcome, found, ended⟩ | ⟨marker, -, ended⟩
    · rw [isAccepted] at ended
      cases outcome with
      | ok other =>
        cases (ended : CallStage.accepted task = .accepted other)
        exact found
      | error => cases (ended : CallStage.isOver (.accepted task) = false)
    · rw [isAccepted] at ended
      cases (ended : CallStage.accepted task = .marked marker)

/-- The books know the markers that calls have returned. -/
theorem Tallies.marked (tallies : session.Tallies books) {index : Nat} {marker : TaskId} :
    session.calls[index]? = some (.stopping (.done marker)) ↔
      books.calls index = .marked marker := by
  constructor
  · intro found
    exact tallies.calls index _ found
  · intro isMarked
    rcases tallies.ended (by rw [isMarked]; rfl) (by rw [isMarked]; exact nofun) with
      ⟨outcome, -, ended⟩ | ⟨other, found, ended⟩
    · rw [isMarked] at ended
      cases outcome with
      | ok task => cases (ended : CallStage.marked marker = .accepted task)
      | error => cases (ended : CallStage.isOver (.marked marker) = false)
    · rw [isMarked] at ended
      cases (ended : CallStage.marked marker = .marked other)
      exact found

/-! ### One move -/

/-- A call that begins is in the stage it begins with. -/
theorem Tallies.begin (tallies : session.Tallies books) {call : Call} (begins : call.Begins) :
    ∃ books', ({ session with calls := session.calls ++ [call] } : Session).Tallies books' ∧
      Books.Step hazards .caller books books' := by
  have unborn := tallies.later session.calls.length (Nat.le_refl _)
  have append : ∀ (stage : CallStage), call.At stage →
      ({ session with calls := session.calls ++ [call] } : Session).Tallies
        { books with calls := Function.update books.calls session.calls.length stage } := by
    intro stage first
    refine ⟨tallies.tasker, fun index other found => ?_, fun index after => ?_, tallies.worker⟩
    · by_cases isLast : index = session.calls.length
      · rw [isLast, List.getElem?_concat_length] at found
        cases found
        simp only [isLast, Function.update_self]
        exact first
      · have within : index < session.calls.length := by
          have bound := (List.getElem?_eq_some_iff.mp found).1
          rw [List.length_append, List.length_singleton] at bound
          omega
        rw [List.getElem?_append_left within] at found
        simp only [Function.update_of_ne isLast]
        exact tallies.calls index other found
    · rw [List.length_append, List.length_singleton] at after
      have notLast : index ≠ session.calls.length := by omega
      simp only [Function.update_of_ne notLast]
      exact tallies.later index (by omega)
  cases begins with
  | post entry overrides isTask =>
    exact ⟨_, append .asking ⟨rfl, Tasker.tryPost_goes entry overrides isTask⟩,
      .begin unborn (.inl rfl)⟩
  | stop => exact ⟨_, append .called Tasker.postStop_goes, .begin unborn (.inr rfl)⟩
  | aside steps =>
    have same := append .aside ⟨rfl, steps⟩
    rw [Function.update_eq_self_iff.mpr unborn.symm] at same
    exact ⟨books, same, .stay _ _⟩

/-- A call that moves is in the stage it has come to. -/
theorem Tallies.set (tallies : session.Tallies books) {index : Nat} {call call' : Call}
    (found : session.calls[index]? = some call) (tasker : Tasker) {stage : CallStage}
    (isAt : call'.At stage) :
    ({ session with tasker, calls := session.calls.set index call' } : Session).Tallies
      { books with tasker, calls := Function.update books.calls index stage } := by
  have within := (List.getElem?_eq_some_iff.mp found).1
  refine ⟨rfl, fun other call'' found' => ?_, fun other after => ?_, tallies.worker⟩
  · by_cases isIndex : other = index
    · rw [isIndex, List.getElem?_set_self within] at found'
      cases found'
      simp only [isIndex, Function.update_self]
      exact isAt
    · rw [List.getElem?_set_ne (Ne.symm isIndex)] at found'
      simp only [Function.update_of_ne isIndex]
      exact tallies.calls other call'' found'
  · rw [List.length_set] at after
    have notIndex : other ≠ index := by omega
    simp only [Function.update_of_ne notIndex]
    exact tallies.later other after

/-- What becomes of a call by one move. -/
theorem Tallies.call (tallies : session.Tallies books) {index : Nat} {call call' : Call}
    {tasker : Tasker} (found : session.calls[index]? = some call)
    (moves : call.Moves session.tasker call' tasker)
    (hazard : ∀ rest, call = .aside rest → hazards.aside session.tasker tasker) :
    ∃ books', ({ session with tasker, calls := session.calls.set index call' } : Session).Tallies
        books' ∧ Books.Step hazards (.call index) books books' := by
  have isAt := tallies.calls index call found
  rw [← tallies.tasker] at moves hazard
  cases moves with
  | posting moves =>
    obtain ⟨stage, go, obeys⟩ := Obeys.moves isAt.2 moves
    have isPost := go.isPost.trans isAt.1
    have isAt : Call.At (.posting _) stage := ⟨isPost, obeys⟩
    exact ⟨_, tallies.set found tasker isAt, .call go⟩
  | stopping moves =>
    obtain ⟨stage, go, obeys⟩ := Obeys.moves isAt moves
    have isAt : Call.At (.stopping _) stage := obeys
    exact ⟨_, tallies.set found tasker isAt, .call go⟩
  | aside moves =>
    obtain ⟨isAside, steps⟩ := isAt
    obtain ⟨aside, steps⟩ := steps.moves Tasker.Aside.refl moves
    have isAt : Call.At (.aside _) .aside := ⟨rfl, steps⟩
    have tallies' := tallies.set found tasker isAt
    rw [Function.update_eq_self_iff.mpr isAside.symm] at tallies'
    exact ⟨_, tallies', .aside isAside aside (hazard _ rfl)⟩

/-- **Each move of a session is a step of its books.** -/
theorem Tallies.step (tallies : session.Tallies books) (sound : books.Sound)
    (step : Step mover session session') (minds : Minds hazards mover session session') :
    ∃ books', session'.Tallies books' ∧ Books.Step hazards mover books books' := by
  cases step with
  | begin begins => exact tallies.begin begins
  | @call _ index call call' tasker found moves =>
    refine tallies.call found moves fun rest isAside => ?_
    rw [isAside] at found
    exact minds.aside index rest rfl found
  | work moves =>
    rw [← tallies.tasker] at moves
    rcases tallies.worker.moves moves with ⟨stage, go, isAt⟩ | ⟨same, isAt⟩
    · exact ⟨⟨_, books.calls, stage⟩, ⟨rfl, tallies.calls, tallies.later, isAt⟩, .work go⟩
    · rw [same]
      exact ⟨books, ⟨rfl, tallies.calls, tallies.later, isAt⟩, .stay _ _⟩
  | serve patience idle free =>
    have held : books.tasker.runner.current = books.work.phase.held := sound.ledger.held
    rw [tallies.tasker, free] at held
    have isFree : books.work = .free := by
      cases work : books.work with
      | free => rfl
      | holding =>
        rw [work] at held
        cases held
    refine ⟨books, ⟨tallies.tasker, tallies.calls, tallies.later, ?_⟩, .stay _ _⟩
    rw [isFree]
    exact .inr ⟨patience, rfl⟩
  | @crash _ resource next job asks current =>
    have isAt := tallies.worker
    rw [asks] at isAt
    have may := isAt.asks
    obtain ⟨id, held, holding⟩ : ∃ id job, books.work = .holding id job .started := by
      generalize books.work = stage at may
      cases stage with
      | free => cases may
      | holding id job stage =>
        cases stage with
        | started => exact ⟨id, job, rfl⟩
        | taken | turned | passed | stranded | closed | reached => cases may
    have same := sound.current holding
    rw [tallies.tasker, current] at same
    cases same
    refine ⟨⟨_, books.calls, .free⟩, ⟨?_, tallies.calls, tallies.later, .inl ⟨true, rfl⟩⟩,
      .crash holding (minds.crash rfl ⟨resource, next, _, asks, current, rfl⟩)⟩
    simp only [tallies.tasker]

/-! ### Any number of moves -/

/-- **What the steps of sound books preserve under hazards, sessions that lead to
others under them preserve.** -/
theorem Tallies.leads {allowed : Mover → Session → Session → Prop}
    (fits : ∀ mover before after, allowed mover before after → Minds hazards mover before after)
    (tallies : session.Tallies books) (sound : books.Sound) (invariant : Session → Books → Prop)
    (steps : ∀ mover before after books books', Step mover before after →
      allowed mover before after → before.Tallies books → after.Tallies books' → books.Sound →
      Books.Step hazards mover books books' → books.tasker.Upward books'.tasker →
      invariant before books → invariant after books')
    (holds : invariant session books) (leads : session.LeadsBy allowed session') :
    ∃ books', session'.Tallies books' ∧ books'.Sound ∧ invariant session' books' := by
  induction leads with
  | refl => exact ⟨books, tallies, sound, holds⟩
  | tail _ goes ih =>
    obtain ⟨between, tallies, sound, holds⟩ := ih
    obtain ⟨mover, step, upward, isAllowed⟩ := goes
    obtain ⟨books', tallies', bookStep⟩ := tallies.step sound step (fits _ _ _ isAllowed)
    rw [← tallies.tasker, ← tallies'.tasker] at upward
    exact ⟨books', tallies', sound.step bookStep upward,
      steps _ _ _ _ _ step isAllowed tallies tallies' sound bookStep upward holds⟩

end Session

end ScreenPilot
