import ScreenPilot.Proofs.Tasker.Agreement
import ScreenPilot.Proofs.Tasker.Unpassed

/-!
# What a stop reaches

A call that stops reaches every task that was accepted before and that the worker has not
found unasked when the call asks all tasks to stop. Whoever else moves, such a task does not
run: the worker asks for nothing on its behalf but the date, and its job ends cancelled. Once
the call has returned and the worker has nothing in hand, the task is stopped, and on record
as stopped, unless its record was dropped (`reaches_of_signal`).

There is one exception. Of several calls that stop at once, it is the one that takes a job
out of the queue that puts the task on record, and another one may return before it has done
so (`exists_lagging`). Markers are tasks of the runner as well, but have no record at all
(`exists_marker_dropped`).
-/

set_option autoImplicit false

namespace ScreenPilot

/-- An operation that may drop records spares everything else. -/
theorem Books.spares_lossy (before after : Tasker) (aside : Hazards.lossy.aside before after) :
    before.Spares after :=
  aside

/-- A call that has yet to put a task on record as stopped is under way. -/
theorem CallStage.Owes.isHalting {task : TaskId} {id : JobId} {stage : CallStage}
    (owes : stage.Owes task id) : stage.isHalting = true := by
  cases stage with
  | dropped | recording => rfl
  | aside | asking | located | ready | accepted | called | raised | signalled | drawn | marked =>
    exact owes.elim

namespace Session

variable {session session' : Session} {books books' : Books} {mover : Mover} {index : Nat}
  {task : TaskId} {id : JobId}

/-! ## Passing the check -/

/-- The worker has a task in hand, which it is about to carry out, and the task is not asked
to stop. -/
def Passes (task : TaskId) (mover : Mover) (before : Session) : Prop :=
  mover = .worker ∧ ∃ patience id job,
    before.worker = Tasker.execute patience job >>= WorkStage.afterwards id ∧
    before.tasker.runner.current = some (id, job) ∧ job.task = task ∧ job.kind ≠ .marker ∧
    before.tasker.engine.stopped.contains task = false

/-- The move is not the one in which the worker finds a task unasked, and other operations
change no records, but may drop them. -/
structure Unpassed (task : TaskId) (mover : Mover) (before after : Session) : Prop where
  minds : Minds .lossy mover before after
  waits : ¬ Passes task mover before

theorem Orderly.lossy {before after : Session} (orderly : Orderly mover before after) :
    Minds .lossy mover before after :=
  orderly.minds.imp (fun _ _ => Tasker.Apart.toSpares) False.elim

theorem Orderly.unpassed {before after : Session} (orderly : Orderly mover before after) :
    Unpassed task mover before after where
  minds := orderly.lossy
  waits := by
    rintro ⟨isWorker, patience, id, job, -, current, -, isTask, -⟩
    exact isTask (orderly.taskless isWorker id job current)

/-- A task that has passed in the books has done so in a move of the worker. -/
theorem Tallies.passes {hazards : Hazards} (tallies : session.Tallies books)
    (sound : books.Sound) (step : Books.Step hazards mover books books')
    (unpassed : books.Unpassed id) {job : TaskJob}
    (passed : books'.work = .holding id job .passed) : Passes job.task mover session := by
  rcases step.passed_cases passed with already | ⟨isWorker, isTask, taken, unasked⟩
  · cases unpassed.stage _ _ already
  · have isAt := tallies.worker
    rw [taken] at isAt
    obtain ⟨patience, turn⟩ := isAt
    have current := sound.current taken
    rw [tallies.tasker] at current unasked
    exact ⟨isWorker, patience, id, job, turn, current, rfl, isTask, unasked⟩

/-! ## Tasks that are reached -/

/-- While the worker has the task in hand, it asks for nothing but the date: it turns to no
recognizer, no actuator and no device. -/
def Idles (session : Session) (task : TaskId) : Prop :=
  ∀ id job question next, session.tasker.runner.current = some (id, job) → job.task = task →
    session.worker = .ask question next → question = .date

/-- On the way from one session to another, a call has dropped the job of a task. -/
def Dropped (first : Session) (index : Nat) (task : TaskId) (now : Session) : Prop :=
  ∃ dropping dropped, first.Leads dropping ∧ Step (.call index) dropping dropped ∧
    dropped.Leads now ∧ dropping.tasker.status task = .pending ∧
    dropped.tasker.status task = .stopped

/-- A call that stops has dropped the job of a task on the way, and is still under way. -/
structure Lags (first : Session) (index : Nat) (task : TaskId) (now : Session) : Prop where
  underway : ∃ rest, now.calls[index]? = some (.stopping rest) ∧ ∀ marker, rest ≠ .done marker
  dropped : first.Dropped index task now

/-- A call that stops has reached a task. -/
structure Reaches (first : Session) (index : Nat) (task : TaskId) (now : Session) : Prop where
  idles : now.Idles task
  /-- If its job has ended, it is cancelled. -/
  cancelled : ∃ id, now.tasker.jobs[task]? = some id ∧
    ((now.tasker.runner.status id).isDone = true → now.tasker.runner.status id = .cancelled)
  /-- Once the call has returned and the worker has nothing in hand, the task is stopped, and
  is on record as stopped unless another call lags behind. -/
  settled : ∀ marker, now.calls[index]? = some (.stopping (.done marker)) →
    now.tasker.runner.current = none → now.tasker.status task = .stopped ∧
      ∀ record, now.tasker.standing task = some record → record = (.stopped, true) ∨
        record = (.pending, false) ∧ ∃ other, other ≠ index ∧ first.Lags other task now

/-! ## What is known of the way -/

/-- A session is one that another leads to, records say where tasks stand, and who has yet to
put a task on record has dropped its job on the way. -/
structure Traces (first : Session) (task : TaskId) (session : Session) (books : Books) :
    Prop where
  leads : first.Leads session
  recorded : books.Recorded .lossy
  drops : ∀ id index, books.Accepted task → books.tasker.jobs[task]? = some id →
    (books.calls index).Owes task id → first.Dropped index task session

theorem Dropped.goes {first before after : Session} (dropped : first.Dropped index task before)
    (goes : before.Goes after) : first.Dropped index task after := by
  obtain ⟨dropping, dropped, leads, step, onward, pending, stopped⟩ := dropped
  exact ⟨dropping, dropped, leads, step, onward.tail goes, pending, stopped⟩

theorem Traces.step {first : Session} (traces : first.Traces task session books)
    (sound : books.Sound) (tallies : session.Tallies books) (tallies' : session'.Tallies books')
    (step : Step mover session session') (bookStep : Books.Step .lossy mover books books')
    (upward : books.tasker.Upward books'.tasker) : first.Traces task session' books' := by
  have goes : session.Goes session' := by
    rw [tallies.tasker, tallies'.tasker] at upward
    exact ⟨⟨mover, step⟩, upward⟩
  refine ⟨traces.leads.tail goes, traces.recorded.step sound Books.spares_lossy bookStep upward,
    fun id index accepted' carried' owes => ?_⟩
  -- a task that has just been posted is pending, so nobody has dropped its job
  have cancelled := (sound.step bookStep upward).cancelled_of_owes carried' owes
  rcases sound.accepted_cases bookStep upward accepted' carried' with
    ⟨accepted, carried⟩ | ⟨pending, -⟩
  · rcases sound.owes_cases bookStep carried owes with before | ⟨rfl, pending, -⟩
    · exact (traces.drops id index accepted carried before).goes goes
    · have wasPending := congrArg JobStatus.task pending
      have isStopped := congrArg JobStatus.task cancelled
      rw [← Tasker.status_of_job carried, tallies.tasker] at wasPending
      rw [← Tasker.status_of_job carried', tallies'.tasker] at isStopped
      exact ⟨session, session', traces.leads, step, .refl, wasPending, isStopped⟩
  · rw [pending] at cancelled
    cases cancelled

/-- Besides, the task has not passed: if it is accepted, its job has not. -/
structure Waits (first : Session) (task : TaskId) (session : Session) (books : Books) :
    Prop where
  traces : first.Traces task session books
  unpassed : ∀ id, books.Accepted task → books.tasker.jobs[task]? = some id → books.Unpassed id

theorem Waits.step {first : Session} (waits : first.Waits task session books)
    (sound : books.Sound) (tallies : session.Tallies books) (tallies' : session'.Tallies books')
    (step : Step mover session session') (allowed : Unpassed task mover session session')
    (bookStep : Books.Step .lossy mover books books')
    (upward : books.tasker.Upward books'.tasker) : first.Waits task session' books' := by
  obtain ⟨traces, unpassed⟩ := waits
  refine ⟨traces.step sound tallies tallies' step bookStep upward, fun id accepted' carried' => ?_⟩
  have sound' := sound.step bookStep upward
  rcases sound.accepted_cases bookStep upward accepted' carried' with
    ⟨accepted, carried⟩ | ⟨pending, -⟩
  · have before := unpassed id accepted carried
    refine before.step sound carried accepted bookStep upward fun job passed => ?_
    have passes := tallies.passes sound bookStep before passed
    rw [(sound'.own carried' accepted' passed).1] at passes
    exact allowed.waits passes
  · exact Books.unpassed_of_pending sound' pending

/-- Whatever a session leads to by moves in which the task does not pass, its job has not. -/
theorem exists_waits {settings : TaskerSettings} {defaults : NodeDefaults}
    (started : (start settings defaults).LeadsBy (Unpassed task) session) :
    ∃ books, session.Tallies books ∧ books.Sound ∧
      (start settings defaults).Waits task session books := by
  refine Tallies.leads (fun _ _ _ => Unpassed.minds) (tallies_start settings defaults)
    (Books.sound_start settings defaults) _
    (fun _ _ _ _ _ step allowed tallies tallies' sound bookStep upward waits =>
      waits.step sound tallies tallies' step allowed bookStep upward) ?_ started
  refine ⟨⟨.refl, Books.recorded_start _ _ _, ?_⟩, ?_⟩
  · rintro _ _ ⟨_, accepted⟩
    cases accepted
  · rintro _ ⟨_, accepted⟩
    cases accepted

/-- A task that was accepted and whose job has not passed idles. -/
theorem Tallies.idles (tallies : session.Tallies books) (sound : books.Sound)
    (carried : books.tasker.jobs[task]? = some id) (unpassed : books.Unpassed id) :
    session.Idles task := by
  intro held job question next current isTask asks
  have isAt := tallies.worker
  rw [asks] at isAt
  rw [← tallies.tasker] at current
  cases work : books.work with
  | free =>
    have free : books.tasker.runner.current = books.work.phase.held := sound.ledger.held
    rw [current, work] at free
    cases free
  | holding other job' stage =>
    have same := sound.current work
    rw [current] at same
    cases same
    have isId := (sound.held_iff carried work).mpr isTask
    subst isId
    rw [work] at isAt
    have may := isAt.asks
    cases unpassed.stage _ _ work with
    | taken => exact may.elim
    | turned => exact may
    | closed => exact may.elim

/-! ## The result -/

/-- The step in which a call asks all tasks to stop is one of the books. -/
theorem Tallies.signal (tallies : session.Tallies books)
    (stops : session.calls[index]? = some (.stopping Tasker.signalling))
    (signals : Step (.call index) session session') :
    ∃ books', session'.Tallies books' ∧ Books.Step .lossy (.call index) books books' ∧
      books'.tasker = books.tasker.signalAll ∧ books'.calls index = .signalled ∧
      books'.work = books.work := by
  have raised : books.calls index = .raised :=
    CallStage.eq_raised_of_signalling (tallies.calls index _ stops)
  have goes : CallStage.Go (books.calls index) books.tasker books.tasker.signalAll .signalled := by
    rw [raised]
    exact .signal _
  cases signals with
  | call found moves =>
    rw [stops] at found
    cases found
    cases moves with
    | stopping moves =>
      cases moves with
      | step =>
        have isAt : Call.At (.stopping Tasker.halting) .signalled := Tasker.halting_goes
        have tallies' := tallies.set stops session.tasker.signalAll isAt
        rw [← tallies.tasker] at tallies' ⊢
        exact ⟨_, tallies', .call goes, rfl, Function.update_self _ _ _, rfl⟩

/-- From when a call has asked all tasks to stop, this holds of a task it has reached. -/
structure Pursues (first : Session) (index : Nat) (task : TaskId) (id : JobId) (session : Session)
    (books : Books) : Prop where
  traces : first.Traces task session books
  accepted : books.Accepted task
  carried : books.tasker.jobs[task]? = some id
  doomed : books.Doomed task id
  cleared : books.Cleared index id

theorem Pursues.step {first : Session} (pursues : first.Pursues index task id session books)
    (sound : books.Sound) (tallies : session.Tallies books) (tallies' : session'.Tallies books')
    (step : Step mover session session') (bookStep : Books.Step .lossy mover books books')
    (upward : books.tasker.Upward books'.tasker) :
    first.Pursues index task id session' books' where
  traces := pursues.traces.step sound tallies tallies' step bookStep upward
  accepted := sound.accepted_persists bookStep upward pursues.accepted
  carried := sound.jobs_persist bookStep upward pursues.carried
  doomed := pursues.doomed.step sound pursues.carried pursues.accepted Books.spares_lossy bookStep
    upward
  cleared := pursues.cleared.step pursues.doomed.toUnpassed sound bookStep upward

/-- A task that is pursued has been reached. -/
theorem Pursues.reaches {first : Session} (pursues : first.Pursues index task id session books)
    (sound : books.Sound) (tallies : session.Tallies books) : first.Reaches index task session where
  idles := tallies.idles sound pursues.carried pursues.doomed.toUnpassed
  cancelled := by
    rw [← tallies.tasker]
    exact ⟨id, pursues.carried, pursues.doomed.ended⟩
  settled := by
    intro marker returned free
    have isMarked := tallies.marked.mp returned
    rw [← tallies.tasker] at free ⊢
    have begun : books.tasker.runner.Begun id := pursues.cleared (by rw [isMarked]; rfl)
    have cancelled : books.tasker.runner.status id = .cancelled := by
      refine pursues.doomed.ended ((Bool.not_eq_false _).mp fun notDone => ?_)
      have running := begun.running notDone
      rw [sound.ordered.running, free] at running
      cases running
    obtain ⟨status, stands, agrees⟩ :=
      pursues.traces.recorded.agrees task id pursues.accepted pursues.carried
    refine ⟨?_, fun record standing => ?_⟩
    · rw [Tasker.status_of_job pursues.carried, cancelled]
      rfl
    · rw [agrees record standing]
      rcases stands.of_cancelled cancelled with rfl | ⟨rfl, other, owes⟩
      · exact .inl rfl
      · have differs : other ≠ index := by
          rintro rfl
          rw [isMarked] at owes
          exact owes
        exact .inr ⟨rfl, other, differs, tallies.halting owes.isHalting,
          pursues.traces.drops id other pursues.accepted pursues.carried owes⟩

/-- A call that asks all tasks to stop pursues those that have not passed. -/
theorem exists_pursues {settings : TaskerSettings} {defaults : NodeDefaults}
    (started : (start settings defaults).LeadsBy (Unpassed task) session)
    (accepted : session.Accepted task)
    (stops : session.calls[index]? = some (.stopping Tasker.signalling))
    (signals : Step (.call index) session session') :
    ∃ books id, session'.Tallies books ∧ books.Sound ∧
      (start settings defaults).Pursues index task id session' books := by
  obtain ⟨books, tallies, sound, traces, unpassed⟩ := exists_waits started
  rw [← tallies.accepted_iff] at accepted
  obtain ⟨id, carried⟩ := (sound.returned task).mp (.inl accepted)
  have unpassed := unpassed id accepted carried
  obtain ⟨books', tallies', bookStep, tasker, signalled, work⟩ := tallies.signal stops signals
  have aside : books.tasker.Aside books'.tasker := by
    rw [tasker]
    exact Tasker.aside_signalAll _
  have doomed : books'.Doomed task id := by
    refine ⟨unpassed.keep (congrArg (Runner.status · id) aside.runner) ?_, ?_⟩
    · rw [work]
      exact unpassed.stage
    · rw [aside.runner, tasker]
      exact unpassed.asked_of_signalAll sound carried
  have cleared : books'.Cleared index id := by
    rw [Books.Cleared, signalled]
    intro owes
    cases owes
  exact ⟨books', id, tallies', sound.step bookStep aside.upward,
    traces.step sound tallies tallies' signals bookStep aside.upward,
    sound.accepted_persists bookStep aside.upward accepted,
    sound.jobs_persist bookStep aside.upward carried, doomed, cleared⟩

/-- **A call that stops reaches every task that was accepted before it asks tasks to stop and
that has not passed the check by then; and a task that has not passed idles.** -/
theorem reaches_of_signal {settings : TaskerSettings} {defaults : NodeDefaults}
    {looking signalled now : Session}
    (started : (start settings defaults).LeadsBy (Unpassed task) looking)
    (accepted : looking.Accepted task)
    (stops : looking.calls[index]? = some (.stopping Tasker.signalling))
    (signals : Step (.call index) looking signalled)
    (leads : signalled.LeadsBy (Minds .lossy) now) :
    (start settings defaults).Reaches index task now ∧
      ∀ earlier, (start settings defaults).LeadsBy (Unpassed task) earlier →
        earlier.Accepted task → earlier.Idles task := by
  constructor
  · obtain ⟨books, id, tallies, sound, pursues⟩ := exists_pursues started accepted stops signals
    obtain ⟨books', tallies', sound', pursues'⟩ := Tallies.leads (fun _ _ _ minds => minds)
      tallies sound (fun session books =>
        (start settings defaults).Pursues index task id session books)
      (fun _ _ _ _ _ step _ tallies tallies' sound bookStep upward pursues =>
        pursues.step sound tallies tallies' step bookStep upward) pursues leads
    exact pursues'.reaches sound' tallies'
  · intro earlier started accepted
    obtain ⟨books, tallies, sound, -, unpassed⟩ := exists_waits started
    rw [← tallies.accepted_iff] at accepted
    obtain ⟨id, carried⟩ := (sound.returned task).mp (.inl accepted)
    exact tallies.idles sound carried (unpassed id accepted carried)

/-! ## Sessions that are reached -/

/-- To ask tasks to stop is an orderly move. -/
theorem leads_of_signal (stops : session.calls[index]? = some (.stopping Tasker.signalling))
    (signals : Step (.call index) session session') : session.LeadsBy Orderly session' := by
  refine .single ⟨_, signals, ?_, orderly_call stops nofun⟩
  cases signals with
  | call found moves =>
    rw [stops] at found
    cases found
    cases moves with
    | stopping moves =>
      cases moves with
      | step => exact (Tasker.aside_signalAll _).upward

/-- From when a call asks tasks to stop to when it has returned, and the worker has carried
out all that is left to do. Up to then the worker has had no task in hand. -/
structure Concludes (looking : Session) (index : Nat) (now : Session) : Prop where
  started : (start default default).LeadsBy Orderly looking
  called : looking.calls[index]? = some (.stopping Tasker.signalling)
  leads : ∃ signalled, Step (.call index) looking signalled ∧ signalled.LeadsBy Orderly now
  returned : ∃ marker, now.calls[index]? = some (.stopping (.done marker))
  idle : now.tasker.isRunning = false

/-- A stop that nobody disturbs concludes when the worker has nothing else to do. No record
changes by it if nothing is queued. -/
theorem exists_concludes (started : (start default default).LeadsBy Orderly session)
    {served : Bool} (idle : session.worker = .done served)
    (free : session.tasker.runner.current = none)
    (goesOn : session.tasker.runner.closed = false)
    (job : session.tasker.runner.lastId ≤ session.tasker.runner.lastId + 1)
    (task : session.tasker.engine.ids.task ≤ session.tasker.engine.ids.task + 1) :
    ∃ marker final, (session.withStop Tasker.signalling).Concludes session.calls.length
        ({ session with tasker := final, worker := .done true }.withCall
          (.stopping (.done marker))) ∧
      (session.tasker.runner.queue = [] →
        ∀ task, final.standing task = session.tasker.standing task) := by
  obtain ⟨signalled, marker, stopped, signals, leads, halts⟩ := leads_signalled session job task
  obtain ⟨final, emptied, nothing, same⟩ := leads_emptied halts leads idle free goesOn
  refine ⟨marker, final, ⟨started.trans (leads_withStop session), withCall_last _ _,
    ⟨signalled, signals, emptied⟩, ⟨marker, withCall_last _ _⟩, nothing⟩, fun empty task => ?_⟩
  exact (same task).trans (halts.standing empty task)

/-- A stop that drops a task that was posted concludes. -/
theorem exists_reached : ∃ (looking now : Session) (index : Nat) (task : TaskId),
    looking.Accepted task ∧ looking.Concludes index now := by
  obtain ⟨session, task, posted⟩ := exists_posted
  obtain ⟨marker, final, concludes, -⟩ := exists_concludes posted.leads posted.worker
    posted.current posted.goesOn posted.job_upward posted.task_upward
  refine ⟨_, _, _, task, ?_, concludes⟩
  exact ⟨1, withCall_earlier posted.returned _⟩

/-- The task that it drops has been reached. -/
theorem reaches_posted : ∃ (looking signalled now : Session) (index : Nat) (task : TaskId),
    (start default default).LeadsBy (Unpassed task) looking ∧ looking.Accepted task ∧
    looking.calls[index]? = some (.stopping Tasker.signalling) ∧
    Step (.call index) looking signalled ∧ signalled.LeadsBy (Minds .lossy) now ∧
    (∃ marker, now.calls[index]? = some (.stopping (.done marker))) ∧
    now.tasker.isRunning = false ∧ (start default default).Reaches index task now ∧
      ∀ earlier, (start default default).LeadsBy (Unpassed task) earlier →
        earlier.Accepted task → earlier.Idles task := by
  obtain ⟨looking, now, index, task, accepted, concludes⟩ := exists_reached
  obtain ⟨signalled, signals, leads⟩ := concludes.leads
  have started : (start default default).LeadsBy (Unpassed task) looking :=
    concludes.started.imp fun _ _ _ => Orderly.unpassed
  have leads : signalled.LeadsBy (Minds .lossy) now := leads.imp fun _ _ _ => Orderly.lossy
  exact ⟨looking, signalled, now, index, task, started, accepted, concludes.called, signals, leads,
    concludes.returned, concludes.idle,
    reaches_of_signal started accepted concludes.called signals leads⟩

/-! ## Records that lag behind -/

/-- A stop may conclude while another one that has dropped a task has yet to put it on
record. -/
theorem exists_lagging : ∃ (looking now : Session) (index : Nat) (task : TaskId),
    looking.Accepted task ∧ looking.Concludes index now ∧
    now.tasker.standing task = some (.pending, false) := by
  obtain ⟨session, task, posted⟩ := exists_posted
  obtain ⟨cleared, clears, runner, drawn, stands⟩ := leads_cleared session
  have free : cleared.runner.current = none := by
    rw [runner]
    exact posted.current
  have goesOn : cleared.runner.closed = false := by
    rw [runner]
    exact posted.goesOn
  have job : cleared.runner.lastId ≤ cleared.runner.lastId + 1 := by
    rw [runner]
    exact posted.job_upward
  have next : cleared.engine.ids.task ≤ cleared.engine.ids.task + 1 := by
    rw [drawn]
    exact posted.task_upward
  obtain ⟨marker, final, concludes, same⟩ :=
    exists_concludes (posted.leads.trans clears) posted.worker free goesOn job next
  have empty : cleared.runner.queue = [] := by
    rw [runner]
    rfl
  refine ⟨_, _, _, task, ?_, concludes, ?_⟩
  · exact ⟨1, withCall_earlier (withCall_earlier posted.returned _) _⟩
  calc final.standing task
    _ = cleared.standing task := same empty task
    _ = session.tasker.standing task := stands task
    _ = some (.pending, false) := posted.standing

/-- The marker of a stop may be dropped by the next one, and there is no record of it. -/
theorem exists_marker_dropped : ∃ (looking now : Session) (index other : Nat) (task : TaskId),
    looking.calls[other]? = some (.stopping (.done task)) ∧ looking.Concludes index now ∧
    now.tasker.standing task = none := by
  obtain ⟨task, stopped, leads, halts⟩ := leads_halts (start default default) (by decide) (by decide)
  let session : Session := { start default default with tasker := stopped }.withCall
    (.stopping (.done task))
  have free : stopped.runner.current = none := by
    rw [halts.enqueues.runner]
    rfl
  have goesOn : stopped.runner.closed = false := by
    rw [halts.enqueues.runner]
    rfl
  have job : stopped.runner.lastId ≤ stopped.runner.lastId + 1 := by
    rw [halts.lastId]
    decide
  have next : stopped.engine.ids.task ≤ stopped.engine.ids.task + 1 := by
    rw [halts.drawn]
    decide
  have started : (start default default).LeadsBy Orderly session := (leads_begin .stop).trans leads
  obtain ⟨marker, final, concludes, -⟩ := exists_concludes started rfl free goesOn job next
  refine ⟨_, _, _, 0, task, rfl, concludes, ?_⟩
  obtain ⟨signalled, signals, leads⟩ := concludes.leads
  have whole : (start default default).LeadsBy (Unpassed task) _ :=
    LeadsBy.imp (concludes.started.trans ((leads_of_signal concludes.called signals).trans leads))
      fun _ _ _ => Orderly.unpassed
  rw [Option.eq_none_iff_forall_ne_some]
  intro record standing
  obtain ⟨books, tallies, -, traces, -⟩ := exists_waits whole
  rw [← tallies.tasker] at standing
  obtain ⟨index, accepted⟩ := (tallies.accepted_iff task).mp (traces.recorded.known _ _ standing)
  -- no call of this session has posted anything
  rcases index with _ | _ | index
  · cases accepted
  · cases accepted
  · cases accepted

/-- **A stop may have returned, with nothing left to do, and still a task that it reached is on
record as pending; and of the marker of a stop there is no record.** -/
theorem unrecorded_after_stop :
    (∃ (looking now : Session) (index : Nat) (task : TaskId), looking.Accepted task ∧
      looking.Concludes index now ∧ now.tasker.standing task = some (.pending, false)) ∧
    ∃ (looking now : Session) (index other : Nat) (task : TaskId),
      looking.calls[other]? = some (.stopping (.done task)) ∧ looking.Concludes index now ∧
      now.tasker.standing task = none :=
  ⟨exists_lagging, exists_marker_dropped⟩

end Session

end ScreenPilot
