import ScreenPilot.Proofs.Tasker.Records

/-!
# Jobs that do not pass

Before the worker runs a task, it looks whether the task is asked to stop. A job that has
not passed this check is pending, or in hand in one of the stages before it, or it was
turned away or dropped; so if it is done, it is cancelled (`Books.Unpassed`). It stays so
for as long as the worker does not find its task unasked.

A call that stops asks all tasks that have a job in the runner. The job of a task that is
asked, or that was dropped, will not pass whatever happens (`Books.Doomed.step`), and once
the call has dropped what is queued, the job is not pending any more (`Books.Cleared.step`).
-/

set_option autoImplicit false

namespace ScreenPilot

/-! ## Who is asked to stop -/

namespace Tasker

theorem contains_foldl_raiseStop (jobs : List (JobId × TaskJob × JobStatus)) (engine : Engine)
    (task : TaskId) :
    (jobs.foldl (fun engine (_, job, _) => engine.raiseStop job.task) engine).stopped.contains
        task = true ↔
      engine.stopped.contains task = true ∨ ∃ entry ∈ jobs, entry.2.1.task = task := by
  induction jobs generalizing engine with
  | nil => simp
  | cons first rest ih =>
    rw [List.foldl_cons, ih]
    simp only [Engine.raiseStop, Std.ExtTreeSet.contains_insert, Bool.or_eq_true, beq_iff_eq,
      Std.compare_eq_iff_eq, List.exists_mem_cons_iff]
    rw [or_assoc, or_left_comm]

/-- All that have a job in the runner are asked to stop, and those who were before. -/
theorem contains_signalAll (tasker : Tasker) (task : TaskId) :
    tasker.signalAll.engine.stopped.contains task = true ↔
      tasker.engine.stopped.contains task = true ∨
        ∃ entry ∈ tasker.runner.entries, entry.2.task = task := by
  refine (contains_foldl_raiseStop _ _ _).trans (or_congr_right ?_)
  simp only [Runner.jobs, Runner.entries, List.mem_append, List.mem_map, or_and_right, exists_or,
    exists_exists_and_eq_and]

end Tasker

/-! ## Calls that stop -/

namespace CallStage

variable {stage stage' : CallStage} {before after : Tasker}

/-- Only a call that stops asks tasks to stop, and in one step. -/
theorem Go.signal_cases (go : Go stage before after stage') :
    (stage = .raised ∧ after = before.signalAll) ∨
      after.engine.stopped = before.engine.stopped := by
  cases go with
  | apart _ apart => exact .inr apart.stopped
  | @accept _ entry kind overrides date isTask going =>
    exact .inr (Tasker.accept_registers going entry kind overrides date).stopped
  | signal => exact .inl ⟨rfl, rfl⟩
  | locate | ready | raise | clear | list | record | draw | mark => exact .inr rfl

/-- What is to ask tasks to stop is left of a call that has told the tasker to turn posts
down. -/
theorem eq_raised_of_signalling (obeys : Tasker.signalling.Obeys Go StopOver stage) :
    stage = .raised := by
  let job : TaskJob := ⟨.invalid, "", .marker, .empty⟩
  -- a tasker in which there is a task to be asked
  let tasker : Tasker := { (default : Tasker) with runner := (Runner.new.post job).2 }
  obtain ⟨stage', go, -⟩ := obeys tasker
  rcases go.signal_cases with ⟨isRaised, -⟩ | same
  · exact isRaised
  · have asked : tasker.signalAll.engine.stopped.contains job.task = true :=
      (Tasker.contains_signalAll tasker job.task).mpr (.inr ⟨_, List.mem_cons_self, rfl⟩)
    rw [same] at asked
    simp [tasker, default, Tasker.new, Engine.new] at asked

/-- A call that stops has dropped what was queued. -/
def hasCleared : CallStage → Bool
  | .dropped _ | .recording _ | .drawn _ | .marked _ => true
  | .aside | .asking | .located | .ready | .accepted _ | .called | .raised | .signalled => false

end CallStage

/-! ## Jobs that have not passed -/

/-- In these stages a job has not passed the check of its request to stop: it is yet to be
checked, or it was turned away, and no other end than that is on record. -/
inductive JobStage.Unpassed : JobStage → Prop where
  | taken : Unpassed .taken
  | turned : Unpassed .turned
  | closed : Unpassed (.closed .stopped)

namespace Books

variable {hazards : Hazards} {mover : Mover} {books books' : Books} {task : TaskId} {id : JobId}

/-- A job has not passed the check of its request to stop. -/
structure Unpassed (books : Books) (id : JobId) : Prop where
  stage : ∀ job stage, books.work = .holding id job stage → stage.Unpassed
  given : books.tasker.runner.status id ≠ .unknown
  ended : (books.tasker.runner.status id).isDone = true →
    books.tasker.runner.status id = .cancelled

/-- A job that has just been put into the queue has not passed. -/
theorem unpassed_of_pending (sound : books.Sound)
    (pending : books.tasker.runner.status id = .pending) : books.Unpassed id where
  stage := by
    intro job stage holding
    rw [sound.running holding] at pending
    cases pending
  given := by
    rw [pending]
    exact nofun
  ended := by
    intro done
    rw [pending] at done
    cases done

theorem Unpassed.keep (unpassed : books.Unpassed id)
    (same : books'.tasker.runner.status id = books.tasker.runner.status id)
    (stage : ∀ job stage, books'.work = .holding id job stage → stage.Unpassed) :
    books'.Unpassed id where
  stage := stage
  given := by
    rw [same]
    exact unpassed.given
  ended := by
    rw [same]
    exact unpassed.ended

/-- What a step of a call does to a job that has not passed is at most to drop it. -/
theorem Unpassed.call (unpassed : books.Unpassed id) (sound : books.Sound)
    (carried : books.tasker.jobs[task]? = some id) {index : Nat} {tasker : Tasker}
    {stage : CallStage} (upward : books.tasker.Upward tasker)
    (go : CallStage.Go (books.calls index) books.tasker tasker stage) :
    Unpassed { books with tasker, calls := Function.update books.calls index stage } id := by
  generalize books.calls index = stage' at go
  cases go with
  | apart _ apart =>
    exact unpassed.keep (congrArg (Runner.status · id) apart.aside.runner) unpassed.stage
  | locate | ready | raise | list | record | draw => exact unpassed.keep rfl unpassed.stage
  | signal =>
    have aside := Tasker.aside_signalAll books.tasker
    exact unpassed.keep (congrArg (Runner.status · id) aside.runner) unpassed.stage
  | @accept _ entry kind overrides date isTask going =>
    have registers := Tasker.accept_registers going entry kind overrides date
    exact unpassed.keep (sound.status_enqueue carried registers.toEnqueues upward) unpassed.stage
  | @mark marker =>
    have registers := Tasker.enqueueMarker_registers books.tasker marker
    exact unpassed.keep (sound.status_enqueue carried registers.toEnqueues upward) unpassed.stage
  | clear =>
    have status_clear := Runner.status_clear books.tasker.runner id
    split at status_clear
    · refine ⟨unpassed.stage, ?_, fun _ => status_clear⟩
      rw [status_clear]
      exact nofun
    · exact unpassed.keep status_clear unpassed.stage

/-- A step of the worker other than to find the task unasked leaves a job where it has not
passed. -/
theorem Unpassed.work (unpassed : books.Unpassed id) (sound : books.Sound)
    (carried : books.tasker.jobs[task]? = some id) (accepted : books.Accepted task)
    {tasker : Tasker} {stage : WorkStage}
    (go : WorkStage.Go books.work books.tasker tasker stage)
    (waits : ∀ job, stage ≠ .holding id job .passed) :
    Unpassed { books with tasker, work := stage } id := by
  generalize now : books.work = stage' at go
  -- a job that ends without having passed ends as one that was turned away
  have finished : ∀ {held : JobId} {job : TaskJob} {stage : JobStage} (outcome : JobOutcome),
      books.work = .holding held job stage →
      (stage.Unpassed → .ofOutcome outcome = JobStatus.cancelled) →
      Unpassed { books with
        tasker := { books.tasker with runner := books.tasker.runner.finish held outcome }
        work := .free } id := by
    intro held job stage outcome holding cancels
    have status_finish := Runner.status_finish books.tasker.runner held outcome id
    by_cases isId : held = id
    · subst isId
      rw [if_pos rfl, cancels (unpassed.stage _ _ holding)] at status_finish
      refine ⟨nofun, ?_, fun _ => status_finish⟩
      rw [status_finish]
      exact nofun
    · rw [if_neg isId] at status_finish
      exact unpassed.keep status_finish nofun
  cases go with
  | apart begun apart =>
    refine unpassed.keep (congrArg (Runner.status · id) apart.aside.runner) fun job next same => ?_
    exact unpassed.stage job next (now.trans same)
  | @take _ first job taken =>
    have stage : ∀ job' next, WorkStage.holding first job .taken = .holding id job' next →
        next.Unpassed := by
      rintro _ _ ⟨⟩
      exact .taken
    have status_take := Runner.status_take taken id
    split at status_take
    · refine ⟨stage, ?_, fun done => ?_⟩
      · rw [status_take]
        exact nofun
      · rw [status_take] at done
        cases done
    · exact unpassed.keep status_take stage
  | reach isMarker =>
    refine unpassed.keep rfl ?_
    rintro _ _ ⟨⟩
    exact absurd isMarker (sound.own carried accepted now).2
  | turn =>
    refine unpassed.keep rfl ?_
    rintro _ _ ⟨⟩
    exact .turned
  | pass =>
    refine unpassed.keep rfl ?_
    rintro _ _ ⟨⟩
    exact absurd rfl (waits _)
  | strand | start =>
    refine unpassed.keep rfl ?_
    rintro _ _ ⟨⟩
    cases unpassed.stage _ _ now
  | close _ closes =>
    refine unpassed.keep rfl ?_
    rintro _ _ ⟨⟩
    cases unpassed.stage _ _ now with
    | taken | closed => cases closes
    | turned =>
      cases closes
      exact .closed
  | @finish _ _ _ outcome _ same =>
    refine finished outcome now fun unpassed => ?_
    cases unpassed
    exact JobStatus.task_eq_stopped.mp same
  | leave => exact finished _ now nofun

/-- **A job that has not passed has not after a step, unless it is the step in which the
worker finds its task unasked.** -/
theorem Unpassed.step (unpassed : books.Unpassed id) (sound : books.Sound)
    (carried : books.tasker.jobs[task]? = some id) (accepted : books.Accepted task)
    (step : Step hazards mover books books') (upward : books.tasker.Upward books'.tasker)
    (waits : ∀ job, books'.work ≠ .holding id job .passed) : books'.Unpassed id := by
  cases step with
  | stay => exact unpassed
  | begin => exact unpassed.keep rfl unpassed.stage
  | aside isAside aside =>
    exact unpassed.keep (congrArg (Runner.status · id) aside.runner) unpassed.stage
  | call go => exact unpassed.call sound carried upward go
  | work go => exact unpassed.work sound carried accepted go waits
  | @crash _ held job holding =>
    have status_finish := Runner.status_finish books.tasker.runner held .failed id
    by_cases isId : held = id
    · subst isId
      cases unpassed.stage _ _ holding
    · rw [if_neg isId] at status_finish
      exact unpassed.keep status_finish nofun

/-- A job passes in one step, in which the worker finds that its task is not asked to
stop. -/
theorem Step.passed_cases (step : Step hazards mover books books') {job : TaskJob}
    (passed : books'.work = .holding id job .passed) :
    books.work = .holding id job .passed ∨
      mover = .worker ∧ job.kind ≠ .marker ∧ books.work = .holding id job .taken ∧
        books.tasker.engine.stopped.contains job.task = false := by
  cases step with
  | stay | begin | aside | call => exact .inl passed
  | @work _ tasker stage go =>
    generalize now : books.work = stage' at go
    cases go with
    | apart => exact .inl passed
    | pass isTask unasked =>
      cases passed
      exact .inr ⟨rfl, isTask, rfl, unasked⟩
    | take | reach | turn | strand | start | close | finish | leave => cases passed
  | crash => cases passed

/-! ## Jobs that will not pass -/

/-- Who is asked to stop stays so. -/
theorem Step.asked_persists (step : Step hazards mover books books')
    (spares : ∀ before after, hazards.aside before after → before.Spares after)
    (asked : books.tasker.engine.stopped.contains task = true) :
    books'.tasker.engine.stopped.contains task = true := by
  cases step with
  | stay | begin | crash => exact asked
  | aside isAside aside hazard => exact (spares _ _ hazard).stopped ▸ asked
  | call go =>
    rcases go.signal_cases with ⟨-, same⟩ | same
    · rw [same]
      exact (Tasker.contains_signalAll _ _).mpr (.inl asked)
    · rw [same]
      exact asked
  | @work _ tasker stage go =>
    generalize books.work = stage' at go
    cases go with
    | apart _ apart => exact apart.stopped ▸ asked
    | take | reach | turn | pass | strand | start | close | finish | leave => exact asked

/-- A job has not passed, and its task is asked to stop or it was dropped. -/
structure Doomed (books : Books) (task : TaskId) (id : JobId) : Prop extends
    Unpassed books id where
  asked : books.tasker.engine.stopped.contains task = true ∨
    books.tasker.runner.status id = .cancelled

/-- When all that are in the runner are asked to stop, a job that has not passed is among
them, or it is cancelled. -/
theorem Unpassed.asked_of_signalAll (unpassed : books.Unpassed id) (sound : books.Sound)
    (carried : books.tasker.jobs[task]? = some id) :
    books.tasker.signalAll.engine.stopped.contains task = true ∨
      books.tasker.runner.status id = .cancelled := by
  have asked : id ∈ books.tasker.runner.line →
      books.tasker.signalAll.engine.stopped.contains task = true := by
    intro inLine
    obtain ⟨entry, member, rfl⟩ := List.mem_map.mp inLine
    have carries : books.tasker.jobs[entry.2.task]? = some entry.1 :=
      sound.ledger.kept.carried entry member
    rw [sound.inverse] at carries carried
    rw [carries] at carried
    exact (Tasker.contains_signalAll _ _).mpr (.inr ⟨entry, member, Option.some.inj carried⟩)
  cases now : books.tasker.runner.status id with
  | unknown => exact absurd now unpassed.given
  | pending =>
    exact .inl (asked (Runner.mem_line.mpr (.inr ((sound.ordered.pending id).mp now))))
  | running =>
    exact .inl (asked (Runner.mem_line.mpr (.inl ((sound.ordered.running id).mp now))))
  | succeeded | failed | cancelled =>
    have cancelled := unpassed.ended (by rw [now]; rfl)
    exact .inr (now.symm.trans cancelled)

/-- **The job of a task that is asked to stop, or that was dropped, does not pass, whatever
the step.** -/
theorem Doomed.step (doomed : books.Doomed task id) (sound : books.Sound)
    (carried : books.tasker.jobs[task]? = some id) (accepted : books.Accepted task)
    (spares : ∀ before after, hazards.aside before after → before.Spares after)
    (step : Step hazards mover books books') (upward : books.tasker.Upward books'.tasker) :
    books'.Doomed task id where
  toUnpassed := by
    refine doomed.toUnpassed.step sound carried accepted step upward fun job passed => ?_
    rcases step.passed_cases passed with already | ⟨-, -, taken, unasked⟩
    · cases doomed.stage _ _ already
    -- the worker would have to find the task unasked, or to have a dropped job in hand
    · rw [(sound.own carried accepted taken).1] at unasked
      rcases doomed.asked with asked | cancelled
      · rw [unasked] at asked
        cases asked
      · rw [sound.running taken] at cancelled
        cases cancelled
  asked := by
    refine doomed.asked.imp (step.asked_persists spares) fun cancelled => ?_
    rw [sound.status_of_done step upward (by rw [cancelled]; rfl), cancelled]

/-! ## Jobs that are not pending any more -/

/-- Once a call that stops has dropped what is queued, a job is not pending. -/
def Cleared (books : Books) (index : Nat) (id : JobId) : Prop :=
  (books.calls index).hasCleared = true → books.tasker.runner.Begun id

theorem Cleared.step {index : Nat} (cleared : books.Cleared index id)
    (unpassed : books.Unpassed id) (sound : books.Sound) (step : Step hazards mover books books')
    (upward : books.tasker.Upward books'.tasker) : books'.Cleared index id := by
  have begun : books.tasker.runner.Begun id → books'.tasker.runner.Begun id :=
    (sound.ledger.change step.ledger upward).begun_persists sound.ordered upward
  intro has
  rcases step.call_cases index with same | ⟨-, first⟩ | ⟨-, go⟩
  · rw [same] at has
    exact begun (cleared has)
  · rcases first with first | first
    · rw [first] at has
      cases has
    · rw [first] at has
      cases has
  · rw [Cleared] at cleared
    generalize books.calls index = stage at go cleared
    generalize books'.calls index = stage' at go has
    generalize books'.tasker = after at go begun ⊢
    cases go with
    | apart => exact begun (cleared has)
    | list | record | draw | mark => exact begun (cleared rfl)
    | locate | ready | accept | raise | signal => cases has
    | clear =>
      show books.tasker.runner.clear.2.status id ≠ .unknown ∧
        books.tasker.runner.clear.2.status id ≠ .pending
      rw [Runner.status_clear]
      split
      · exact ⟨nofun, nofun⟩
      · rename_i notQueued
        exact ⟨unpassed.given, fun pending => notQueued ((sound.ordered.pending id).mp pending)⟩

/-! ## Who dropped a job -/

/-- A call that has yet to put a task on record as stopped has dropped its job. -/
theorem Sound.cancelled_of_owes (sound : books.Sound)
    (carried : books.tasker.jobs[task]? = some id) {index : Nat}
    (owes : (books.calls index).Owes task id) : books.tasker.runner.status id = .cancelled := by
  have owed := sound.owed index
  generalize books.calls index = stage at owes owed
  cases stage with
  | dropped jobs => exact owed id owes
  | recording tasks =>
    obtain ⟨other, carried', cancelled⟩ := owed task owes
    cases carried.symm.trans carried'
    exact cancelled
  | aside | asking | located | ready | accepted | called | raised | signalled | drawn | marked =>
    exact owes.elim

/-- A call comes to owe the record of a task in the step in which it drops its job. -/
theorem Sound.owes_cases (sound : books.Sound) (step : Step hazards mover books books')
    (carried : books.tasker.jobs[task]? = some id) {index : Nat}
    (owes : (books'.calls index).Owes task id) :
    (books.calls index).Owes task id ∨
      mover = .call index ∧ books.tasker.runner.status id = .pending ∧
        books'.tasker.runner.status id = .cancelled := by
  rcases step.call_cases index with same | ⟨-, first⟩ | ⟨isMover, go⟩
  · rw [same] at owes
    exact .inl owes
  · rcases first with first | first
    · rw [first] at owes
      exact owes.elim
    · rw [first] at owes
      exact owes.elim
  · generalize books.calls index = stage at go ⊢
    generalize books'.calls index = stage' at go owes
    generalize books'.tasker = after at go ⊢
    cases go with
    | apart => exact .inl owes
    | locate | ready | accept | raise | signal | draw | mark => exact owes.elim
    | clear =>
      have queued : id ∈ books.tasker.runner.queue.map Prod.fst := owes
      refine .inr ⟨isMover, (sound.ordered.pending id).mpr queued, ?_⟩
      exact (Runner.status_clear _ _).trans (if_pos queued)
    | list =>
      obtain ⟨other, dropped, carries⟩ := List.mem_filterMap.mp owes
      have carries := (sound.inverse task other).mpr carries
      cases carried.symm.trans carries
      exact .inl dropped
    | record => exact .inl (List.mem_cons_of_mem _ owes)

end Books

end ScreenPilot
