import ScreenPilot.Proofs.Tasker.Passing
import ScreenPilot.Proofs.Tasker.Records

/-!
# Statuses and records agree

A tasker answers for its tasks in two ways: by the status of the task's job, and by what
is on record of the task. In a session in which records are not dropped and all graphs
can be had, the record of a task that was accepted goes from pending over running to the
end of its run, or from pending to stopped, and is stamped with a time exactly when it is
done. When no call that stops is under way and the runner has nothing to do, the two
answers are the same (`agrees_of_start`).

A task is known to the tasker exactly when a call has returned it, as one that was
accepted or as a marker.
-/

set_option autoImplicit false

namespace ScreenPilot

namespace Tasker

variable {before after : Tasker}

/-- The job of each task was given to the runner. -/
def Given (tasker : Tasker) : Prop :=
  ∀ (task : TaskId) (id : JobId), tasker.jobs[task]? = some id →
    tasker.runner.status id ≠ .unknown

theorem Change.given (change : before.Change after) (given : before.Given) : after.Given := by
  intro task id carried
  cases change with
  | aside aside =>
    rw [aside.jobs] at carried
    rw [aside.runner]
    exact given task id carried
  | @enqueue job _ _ enqueues isNew =>
    rw [enqueues.runner, Runner.status_post]
    split
    · exact nofun
    · rename_i other
      by_cases isJob : task = job.task
      · rw [isJob, enqueues.job_self] at carried
        exact absurd (Option.some.inj carried) other
      · rw [enqueues.job_of_ne isJob] at carried
        exact given task id carried
  | raise | draw | reach => exact given task id carried
  | clear =>
    show before.runner.clear.2.status id ≠ .unknown
    rw [Runner.status_clear]
    split
    · exact nofun
    · exact given task id carried
  | take =>
    show before.runner.take.2.status id ≠ .unknown
    rcases before.runner.take_cases with nothing | ⟨first, rest, -, took⟩
    · rw [nothing]
      exact given task id carried
    · rw [took, Runner.status_taken]
      split
      · exact nofun
      · exact given task id carried
  | finish _ ended outcome =>
    show (before.runner.finish ended outcome).status id ≠ .unknown
    rw [Runner.status_finish]
    split
    · cases outcome <;> exact nofun
    · exact given task id carried

/-- A task is invalid exactly if it has no job. -/
theorem Given.status_eq_invalid {tasker : Tasker} (given : tasker.Given) (task : TaskId) :
    tasker.status task = .invalid ↔ ¬ ∃ id, tasker.jobs[task]? = some id := by
  cases carried : tasker.jobs[task]? with
  | none =>
    unfold status
    rw [carried]
    exact iff_of_true rfl nofun
  | some id =>
    refine iff_of_false (fun invalid => given task id carried ?_) fun none => none ⟨id, rfl⟩
    rw [status_of_job carried] at invalid
    generalize tasker.runner.status id = job at invalid ⊢
    cases job with
    | unknown => rfl
    | pending | running | succeeded | failed | cancelled => cases invalid

/-- How what is on record of a task may change. -/
inductive RecordGoes : Option (TaskStatus × Bool) → Option (TaskStatus × Bool) → Prop where
  | stay (record : Option (TaskStatus × Bool)) : RecordGoes record record
  | post : RecordGoes none (some (.pending, false))
  | advance {status status' : TaskStatus} (advances : status.Advances status') :
      RecordGoes (some (status, status.isDone)) (some (status', status'.isDone))

/-- The record of a task that is done stays as it is. -/
theorem RecordGoes.eq_of_done {status : TaskStatus} {record : Option (TaskStatus × Bool)}
    (goes : RecordGoes (some (status, true)) record) (done : status.isDone = true) :
    record = some (status, true) := by
  rw [← done] at goes ⊢
  cases goes with
  | stay => rfl
  | advance advances =>
    cases advances with
    | stay => rfl
    | begin | drop => cases done
    | finish => cases done

end Tasker

namespace Books

variable {mover : Mover} {books books' : Books} {task : TaskId} {id : JobId} {status : TaskStatus}

/-- Where no records are dropped and all graphs can be had, every task that was accepted
is on record. -/
structure Complete (books : Books) : Prop where
  given : books.tasker.Given
  recorded : books.Recorded .none
  present : ∀ task, books.Accepted task → ∃ record, books.tasker.standing task = some record

theorem complete_start (settings : TaskerSettings) (defaults : NodeDefaults) :
    Complete ⟨.new settings defaults, fun _ => .aside, .free⟩ where
  given := by
    intro task id carried
    simp [Tasker.new] at carried
  recorded := recorded_start .none settings defaults
  present := by
    rintro task ⟨index, accepted⟩
    cases accepted

theorem spares_none (before after : Tasker) (aside : Hazards.none.aside before after) :
    before.Spares after :=
  Tasker.Apart.toSpares aside

/-- A record that follows where nothing is dropped stays. -/
theorem goes_of_follows {before after : Tasker} {status' : TaskStatus}
    (follows : Tasker.Follows .none task before after status status')
    (recorded : before.standing task = some (status, status.isDone)) :
    after.standing task = some (status', status'.isDone) ∧ status.Advances status' := by
  cases follows with
  | same same => exact ⟨same.trans recorded, .stay _⟩
  | aside aside => exact ⟨(Tasker.Apart.stands aside task).trans recorded, .stay _⟩
  | given advances given =>
    refine ⟨?_, advances⟩
    rw [given, recorded]
    exact congrArg (fun done => some (status', done)) advances.isDone

/-- A task that was accepted is on record as it stands. -/
theorem Complete.standing (complete : books.Complete) (accepted : books.Accepted task)
    (carried : books.tasker.jobs[task]? = some id) : ∃ status,
    Stands .none books task id status ∧
      books.tasker.standing task = some (status, status.isDone) := by
  obtain ⟨status, stands, agrees⟩ := complete.recorded.agrees task id accepted carried
  obtain ⟨record, standing⟩ := complete.present task accepted
  exact ⟨status, stands, standing.trans (congrArg some (agrees record standing))⟩

/-- **The record of a task goes from pending over running to the end, or to stopped.** -/
theorem Complete.goes (complete : books.Complete) (sound : books.Sound)
    (step : Step .none mover books books') (upward : books.tasker.Upward books'.tasker)
    (task : TaskId) : Tasker.RecordGoes (books.tasker.standing task)
      (books'.tasker.standing task) := by
  cases before : books.tasker.standing task with
  | none =>
    cases after : books'.tasker.standing task with
    | none => exact .stay none
    | some record =>
      rw [(step.new_record spares_none before after).2]
      exact .post
  | some record =>
    have accepted := complete.recorded.known task record before
    obtain ⟨id, carried⟩ := (sound.returned task).mp (.inl accepted)
    obtain ⟨status, stands, standing⟩ := complete.standing accepted carried
    obtain ⟨status', -, follows⟩ :=
      stands.step sound complete.recorded.bound accepted carried step upward
    obtain ⟨standing', advances⟩ := goes_of_follows follows standing
    rw [← before, standing, standing']
    exact .advance advances

theorem Complete.step (complete : books.Complete) (sound : books.Sound)
    (step : Step .none mover books books') (upward : books.tasker.Upward books'.tasker) :
    books'.Complete where
  given := (sound.ledger.change step.ledger upward).given complete.given
  recorded := complete.recorded.step sound spares_none step upward
  present := by
    intro task accepted'
    have sound' := sound.step step upward
    obtain ⟨id, carried'⟩ := (sound'.returned task).mp (.inl accepted')
    rcases sound.accepted_cases step upward accepted' carried' with ⟨accepted, -⟩ | ⟨-, recorded⟩
    · obtain ⟨record, standing⟩ := complete.present task accepted
      have goes := complete.goes sound step upward task
      rw [standing] at goes
      generalize books'.tasker.standing task = record' at goes ⊢
      cases goes with
      | stay => exact ⟨record, rfl⟩
      | advance => exact ⟨_, rfl⟩
    · exact ⟨_, recorded⟩

end Books

namespace Session

/-- A call that posts has returned the task. -/
def Accepted (session : Session) (task : TaskId) : Prop :=
  ∃ index : Nat, session.calls[index]? = some (.posting (.done (.ok task)))

/-- A call has returned the task, as one that was accepted or as a marker. -/
def Returned (session : Session) (task : TaskId) : Prop :=
  session.Accepted task ∨ ∃ index : Nat, session.calls[index]? = some (.stopping (.done task))

/-- A task keeps its job, and its record goes the way of records. -/
structure Onward (before after : Session) : Prop where
  jobs : ∀ (task : TaskId) (id : JobId), before.tasker.jobs[task]? = some id →
    after.tasker.jobs[task]? = some id
  records : ∀ task, Tasker.RecordGoes (before.tasker.standing task) (after.tasker.standing task)

/-- The statuses of tasks and what is on record of them agree. -/
structure Agrees (session : Session) : Prop where
  inverse : session.tasker.Inverse
  /-- A job in the runner is that of its task. -/
  own : ∀ entry ∈ session.tasker.runner.entries,
    session.tasker.jobs[entry.2.task]? = some entry.1
  invalid : ∀ task, session.tasker.status task = .invalid ↔ ¬ session.Returned task
  /-- The end of a task is stamped exactly if it is done. -/
  recorded : ∀ task, session.Accepted task → ∃ status,
    session.tasker.standing task = some (status, status.isDone)
  settled : session.Unhalted → session.tasker.isRunning = false →
    ∀ task, session.Accepted task →
      session.tasker.standing task = some (session.tasker.status task, true) ∧
      (session.tasker.status task).isDone = true
  onward : ∀ mover after, Step mover session after → session.tasker.Upward after.tasker →
    Minds .none mover session after → session.Onward after

variable {session : Session} {books : Books}

theorem Tallies.accepted_iff (tallies : session.Tallies books) (task : TaskId) :
    books.Accepted task ↔ session.Accepted task :=
  exists_congr fun _ => tallies.accepted.symm

theorem Tallies.returned_iff (tallies : session.Tallies books) (task : TaskId) :
    books.Returned task ↔ session.Returned task :=
  or_congr (tallies.accepted_iff task) (exists_congr fun _ => tallies.marked.symm)

/-- When no call that stops is under way and the runner has nothing to do, a task that was
accepted is on record with the status it has. -/
theorem Tallies.settled (tallies : session.Tallies books) (sound : books.Sound)
    (complete : books.Complete) (unhalted : session.Unhalted)
    (idle : session.tasker.isRunning = false) {task : TaskId} (accepted : session.Accepted task) :
    session.tasker.standing task = some (session.tasker.status task, true) ∧
      (session.tasker.status task).isDone = true := by
  rw [← tallies.accepted_iff] at accepted
  rw [← tallies.tasker] at idle ⊢
  obtain ⟨id, carried⟩ := (sound.returned task).mp (.inl accepted)
  obtain ⟨status, stands, standing⟩ := complete.standing accepted carried
  have idle := Runner.isRunning_eq_false.mp idle
  rw [Tasker.status_of_job carried]
  cases stands with
  | queued pending =>
    rw [sound.ordered.pending, idle.2] at pending
    cases pending
  | held running =>
    rw [sound.ordered.running, idle.1] at running
    cases running
  | @ended job ended done =>
    have isDone : job.task.isDone = true := (JobStatus.isDone_task job).trans done
    rw [ended, standing, isDone]
    exact ⟨rfl, rfl⟩
  | @owed index _ owes =>
    have halting := tallies.not_halting unhalted index
    generalize books.calls index = stage at owes halting
    cases stage with
    | dropped | recording => cases halting
    | aside | asking | located | ready | accepted | called | raised | signalled | drawn | marked =>
      exact owes.elim
  | crashed _ hazard => exact hazard.elim

/-- **In a session in which records are not dropped and all graphs can be had, the
statuses of tasks and what is on record of them agree.** -/
theorem agrees_of_start {settings : TaskerSettings} {defaults : NodeDefaults}
    (started : (start settings defaults).LeadsBy (Minds .none) session) : session.Agrees := by
  obtain ⟨books, tallies, sound, complete⟩ := Tallies.leads (fun _ _ _ => id)
    (tallies_start settings defaults) (Books.sound_start settings defaults)
    (fun _ books => books.Complete)
    (fun _ _ _ _ _ _ _ _ _ sound step upward complete => complete.step sound step upward)
    (Books.complete_start settings defaults) started
  constructor
  · rw [← tallies.tasker]
    exact sound.inverse
  · rw [← tallies.tasker]
    exact sound.ledger.kept.carried
  · intro task
    rw [← tallies.tasker, ← tallies.returned_iff, sound.returned]
    exact complete.given.status_eq_invalid task
  · intro task accepted
    rw [← tallies.accepted_iff] at accepted
    obtain ⟨id, carried⟩ := (sound.returned task).mp (.inl accepted)
    obtain ⟨status, -, standing⟩ := complete.standing accepted carried
    rw [← tallies.tasker]
    exact ⟨status, standing⟩
  · intro unhalted idle task accepted
    exact tallies.settled sound complete unhalted idle accepted
  · intro mover after step upward minds
    obtain ⟨books', tallies', bookStep⟩ := tallies.step sound step minds
    rw [← tallies.tasker, ← tallies'.tasker] at upward
    refine ⟨?_, ?_⟩
    · rw [← tallies.tasker, ← tallies'.tasker]
      exact fun task id carried => sound.jobs_persist bookStep upward carried
    · rw [← tallies.tasker, ← tallies'.tasker]
      exact complete.goes sound bookStep upward

/-- A task that a stop dropped is in such a session. -/
theorem agrees_after_drop : ∃ session task, (start default default).LeadsBy (Minds .none) session ∧
    session.Accepted task ∧ session.Unhalted ∧ session.tasker.isRunning = false ∧
    session.Agrees := by
  obtain ⟨session, task, marker, started, accepted, -, unhalted, idle, -⟩ := exists_dropped
  have started := started.imp fun _ _ _ => Orderly.minds
  exact ⟨session, task, started, ⟨1, accepted⟩, unhalted, idle, agrees_of_start started⟩

end Session

end ScreenPilot
