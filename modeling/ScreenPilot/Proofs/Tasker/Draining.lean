import ScreenPilot.Proofs.Tasker.Undisturbed

/-!
# What is posted while a stop drains

A stop drains from when it has told the tasker to turn posts down until its marker
is done. Whatever a call that posts does in between, it leaves the tasker as it
is, and it ends with the error that the tasker is stopping, unless the task lacks
something else (`turned_down_while_draining`).

There is one exception. The tasker keeps a single flag for all stops, and the
worker lowers it at each marker. From when it reaches the marker of a stop, tasks
are accepted while another stop drains that raised the flag before, and while
the marker that was reached is running (`leads_accepted_while_draining`).
-/

set_option autoImplicit false

namespace ScreenPilot

/-! ## Calls that post -/

namespace Tasker

variable {before after : Tasker}

/-- A tasker that is stopping turns a task down when it decides about it. -/
theorem decision_turned_down (stopping : before.stopping = true) {entry : String}
    {kind : TaskKind} {overrides : Graph} {now : Timestamp} {rest : Tasking (Outcome TaskId)}
    (moves : (decision entry kind overrides now).Moves before rest after) :
    rest = .done (.error .stopping) := by
  cases moves with
  | step =>
    simp only [accept_of_stopping stopping]

/-- While a tasker is stopping, a call that posts changes nothing. -/
theorem Decides.unchanged {rest rest' : Tasking (Outcome TaskId)} (decides : Decides rest)
    (stopping : before.stopping = true) (moves : rest.Moves before rest' after) :
    after = before := by
  cases moves with
  | step change next =>
    rcases decides with looks | ⟨entry, kind, overrides, now, -, decision⟩
    · exact (looks before).1
    · cases decision
      exact congrArg Prod.snd (accept_of_stopping stopping entry kind overrides now)
  | ask => rfl

/-- While a tasker is stopping, a call that posts ends with an error. -/
theorem Decides.ended {rest : Tasking (Outcome TaskId)} {outcome : Outcome TaskId}
    (decides : Decides rest) (stopping : before.stopping = true)
    (moves : rest.Moves before (.done outcome) after) :
    outcome = .error .stopping ∨ ∃ error, Lacks error ∧ outcome = .error error := by
  generalize same : (.done outcome : Tasking (Outcome TaskId)) = rest' at moves
  cases moves with
  | step change next =>
    rcases decides with looks | ⟨entry, kind, overrides, now, -, decision⟩
    · obtain ⟨-, decides⟩ := looks before
      rw [← same] at decides
      exact .inr decides
    · cases decision
      cases same
      exact .inl (congrArg Prod.fst (accept_of_stopping stopping entry kind overrides now))
  | ask question next answer =>
    have decides : Decides (next answer) := decides answer
    rw [← same] at decides
    exact .inr decides

end Tasker

namespace Session

/-! ## What stays -/

/-- What a call has returned, it has returned for good. -/
theorem returned_persists {before after : Session} (leads : before.Leads after) {index : Nat}
    {marker : TaskId} (returned : before.calls[index]? = some (.stopping (.done marker))) :
    after.calls[index]? = some (.stopping (.done marker)) := by
  induction leads with
  | refl => exact returned
  | tail _ goes ih =>
    obtain ⟨⟨mover, step⟩, -⟩ := goes
    cases step with
    | begin begins => exact withCall_earlier ih _
    | @call _ other call call' tasker found moves =>
      have differs : other ≠ index := by
        rintro rfl
        rw [ih] at found
        cases found
        cases moves with
        | stopping moves => cases moves
      exact (List.getElem?_set_ne differs).trans ih
    | work => exact ih
    | serve => exact ih
    | crash => exact ih

/-- A task that runs is running until it is done. -/
theorem running_until_done {settings : TaskerSettings} {defaults : NodeDefaults}
    {session later : Session} (started : (start settings defaults).Leads session)
    (leads : session.Leads later) {task : TaskId} (running : session.tasker.status task = .running)
    (notDone : (later.tasker.status task).isDone = false) :
    later.tasker.status task = .running := by
  obtain ⟨first, conforms, sound⟩ := conforms_of_start started
  rw [← conforms.tasker] at running
  obtain ⟨id, carried, -⟩ := Tasker.job_of_status sound.kept (by rw [running]; decide)
  rw [Tasker.status_of_job carried, JobStatus.task_eq_running] at running
  have begun : first.tasker.runner.Begun id := by
    rw [Runner.Begun, running]
    exact ⟨by decide, by decide⟩
  obtain ⟨last, conforms, -, carried, begun⟩ := conforms.leads sound
    (fun ledger => ledger.tasker.jobs[task]? = some id ∧ ledger.tasker.runner.Begun id)
    (fun _ _ _ sound step upward before =>
      have change := sound.change step upward
      ⟨change.job_persists before.1, change.begun_persists sound.kept.ordered upward before.2⟩)
    ⟨carried, begun⟩ leads
  rw [← conforms.tasker, Tasker.status_of_job carried] at notDone ⊢
  rw [JobStatus.isDone_task] at notDone
  exact JobStatus.task_eq_running.mpr (begun.running notDone)

/-! ## Letting posts pass -/

/-- Since the first session, the worker has let posts pass again, when it reached the
marker that a call has returned; and no other call has told the tasker to turn
them down since. -/
structure LetPass (first : Session) (index : Nat) (marker : TaskId) (last : Session) : Prop where
  returned : last.calls[index]? = some (.stopping (.done marker))
  reached : ∃ still lowered, first.Leads still ∧ still.tasker.status marker = .running ∧
    still.tasker.stopping = true ∧ Step .worker still lowered ∧
    lowered.tasker.stopping = false ∧ lowered.LeadsWhile (·.tasker.stopping = false) last

/-- A tasker that was stopping and is not any more has let posts pass at a marker,
which is still running if it is not done. -/
theorem exists_letPass {settings : TaskerSettings} {defaults : NodeDefaults}
    {first last : Session} (started : (start settings defaults).Leads first)
    (leads : first.Leads last) (stopping : first.tasker.stopping = true)
    (passing : last.tasker.stopping ≠ true) :
    ∃ index marker, first.LetPass index marker last ∧
      ((last.tasker.status marker).isDone = false → last.tasker.status marker = .running) := by
  obtain ⟨still, lowered, leads, wasStopping, goes, passing, leads'⟩ :=
    leads.exists_turn (fun session => session.tasker.stopping = true) stopping passing
  have onward : still.Leads last := leads'.leads.head goes
  obtain ⟨⟨mover, lowers⟩, -⟩ := goes
  obtain ⟨ledger, conforms, sound⟩ := conforms_of_start (started.trans leads)
  obtain ⟨ledger', conforms', lowers'⟩ := conforms.step sound lowers
  obtain ⟨rfl, id, job, holding, isMarker⟩ := lowers'.lowers
    (by rw [conforms.tasker]; exact wasStopping) (by rw [conforms'.tasker]; exact passing)
  have current : ledger.tasker.runner.current = some (id, job) := by
    rw [sound.held, holding]
    rfl
  obtain ⟨index, marked⟩ := sound.markers (id, job) (Runner.mem_entries_of_current current) isMarker
  have running := sound.kept.status_of_current current
  rw [conforms.tasker] at running
  refine ⟨index, job.task, ⟨returned_persists onward (conforms.marked marked), ?_⟩,
    running_until_done (started.trans leads) onward running⟩
  exact ⟨still, lowered, leads, running, wasStopping, lowers, Bool.eq_false_iff.mpr passing,
    leads'.imp fun _ => Bool.eq_false_iff.mpr⟩

/-! ## Draining -/

/-- A call that stops has told the tasker to turn posts down. From there another
session has been reached, and the marker of the call is not done in it. -/
structure Drains (index : Nat) (raised now : Session) : Prop where
  raises : ∃ settings defaults called, (start settings defaults).Leads called ∧
    called.calls[index]? = some (.stopping Tasker.postStop) ∧ Step (.call index) called raised
  leads : raised.Leads now
  notDone : ∀ marker, now.calls[index]? = some (.stopping (.done marker)) →
    (now.tasker.status marker).isDone = false

/-- The first step of a call that stops tells the tasker to turn posts down. -/
theorem raised_of_step {called raised : Session} {index : Nat}
    (isStop : called.calls[index]? = some (.stopping Tasker.postStop))
    (step : Step (.call index) called raised) :
    raised.tasker = { called.tasker with stopping := true } := by
  cases step with
  | call found moves =>
    rw [isStop] at found
    cases found
    cases moves with
    | stopping moves => exact moves.step_eq

theorem Drains.started {index : Nat} {raised now : Session} (drains : Drains index raised now) :
    raised.tasker.stopping = true ∧
      ∃ settings defaults, (start settings defaults).Leads raised := by
  obtain ⟨settings, defaults, called, started, isStop, step⟩ := drains.raises
  have raises := raised_of_step isStop step
  refine ⟨by rw [raises], settings, defaults, started.tail ⟨⟨_, step⟩, ?_⟩⟩
  rw [raises]
  exact ⟨UInt64.le_refl _, UInt64.le_refl _⟩

/-- A move of a call that posts changes nothing. If it is the one in which the call
decides, the task is turned down; otherwise the call may only end for what the
task lacks. -/
structure TurnsDown (poster : Nat) (rest : Tasker.Tasking (Outcome TaskId))
    (before after : Session) : Prop where
  unchanged : after.tasker = before.tasker
  decided : ∀ entry kind overrides now, rest = Tasker.decision entry kind overrides now →
    after.calls[poster]? = some (.posting (.done (.error .stopping)))
  ended : ∀ outcome, after.calls[poster]? = some (.posting (.done outcome)) →
    outcome = .error .stopping ∨ ∃ error, Tasker.Lacks error ∧ outcome = .error error

/-- A tasker that is stopping turns down whatever is posted. -/
theorem turnsDown_of_stopping {settings : TaskerSettings} {defaults : NodeDefaults}
    {before after : Session} (started : (start settings defaults).Leads before)
    (stopping : before.tasker.stopping = true) {poster : Nat}
    {rest : Tasker.Tasking (Outcome TaskId)}
    (posting : before.calls[poster]? = some (.posting rest))
    (step : Step (.call poster) before after) : TurnsDown poster rest before after := by
  obtain ⟨ledger, conforms, -⟩ := conforms_of_start started
  obtain ⟨within, -⟩ := List.getElem?_eq_some_iff.mp posting
  cases step with
  | @call _ _ _ _ tasker found moves =>
    rw [posting] at found
    cases found
    cases moves with
    | @posting _ rest' _ _ moves =>
      have decides : Tasker.Decides rest := by
        rcases (conforms.calls poster _ posting).2 with ⟨outcome, rfl⟩ | decides
        · cases moves
        · exact decides
      have mover : (before.calls.set poster (.posting rest'))[poster]? = some (.posting rest') :=
        List.getElem?_set_self within
      refine ⟨decides.unchanged stopping moves, ?_, ?_⟩
      · intro entry kind overrides now decision
        rw [decision] at moves
        exact mover.trans (by rw [Tasker.decision_turned_down stopping moves])
      · intro outcome ended
        cases mover.symm.trans ended
        exact decides.ended stopping moves

/-- If the move of a call that posts is the one in which it decides, the task is
accepted. -/
def LetsIn (poster : Nat) (rest : Tasker.Tasking (Outcome TaskId)) (after : Session) : Prop :=
  ∀ entry kind overrides now, rest = Tasker.decision entry kind overrides now →
    ∃ task, after.calls[poster]? = some (.posting (.done (.ok task)))

/-- A tasker that is not stopping accepts a task when it decides about it. -/
theorem letsIn_of_passing {before after : Session} (passing : before.tasker.stopping = false)
    {poster : Nat} {rest : Tasker.Tasking (Outcome TaskId)}
    (posting : before.calls[poster]? = some (.posting rest))
    (step : Step (.call poster) before after) : LetsIn poster rest after := by
  rintro entry kind overrides now rfl
  obtain ⟨within, -⟩ := List.getElem?_eq_some_iff.mp posting
  obtain ⟨job, -, -, isOk, -⟩ := Tasker.accept_enqueues passing entry kind overrides now
  refine ⟨job.task, ?_⟩
  cases step with
  | call found moves =>
    rw [posting] at found
    cases found
    cases moves with
    | posting moves =>
      cases moves with
      | step =>
        rw [← isOk]
        exact List.getElem?_set_self within

/-- **While a stop drains, what is posted is turned down, unless the worker has since
let posts pass at the marker of a call that stops; then it is accepted. If this is
the marker of the same stop, it is still running.** -/
theorem turned_down_while_draining {raised before after : Session} {index poster : Nat}
    {rest : Tasker.Tasking (Outcome TaskId)} (drains : Drains index raised before)
    (posting : before.calls[poster]? = some (.posting rest))
    (step : Step (.call poster) before after) :
    TurnsDown poster rest before after ∨
      LetsIn poster rest after ∧ ∃ other marker, raised.LetPass other marker before ∧
        (other = index → before.tasker.status marker = .running) := by
  obtain ⟨stopping, settings, defaults, started⟩ := drains.started
  by_cases stays : before.tasker.stopping = true
  · exact .inl (turnsDown_of_stopping (started.trans drains.leads) stays posting step)
  · obtain ⟨other, marker, letPass, running⟩ :=
      exists_letPass started drains.leads stopping stays
    have passing := Bool.eq_false_iff.mpr stays
    refine .inr ⟨letsIn_of_passing passing posting step, other, marker, letPass, ?_⟩
    rintro rfl
    exact running (drains.notDone marker letPass.returned)

/-! ## Posts that pass -/

/-- A call that stops begins to drain, and drains for as long as it has not
returned. -/
theorem exists_drains {settings : TaskerSettings} {defaults : NodeDefaults} {session : Session}
    (started : (start settings defaults).Leads session) :
    ∃ rest, ∀ now, (session.withStop rest).Leads now →
      now.calls[session.calls.length]? = some (.stopping rest) →
        Drains session.calls.length (session.withStop rest) now := by
  obtain ⟨rest, moves, ongoing⟩ : ∃ rest, Tasker.postStop.Moves session.tasker rest
      { session.tasker with stopping := true } ∧ ∀ marker, rest ≠ .done marker :=
    ⟨_, .step _ _ _, nofun⟩
  refine ⟨rest, fun now leads found => ⟨⟨_, _, _, started.trans (leads_begin .stop).leads,
    withCall_last _ _, step_last session (.stopping moves)⟩, leads, fun marker returned => ?_⟩⟩
  rw [found] at returned
  cases returned
  exact absurd rfl (ongoing marker)

/-- **Just before the worker reaches a marker, a stop may be called that then drains
while a task is posted and accepted**, if neither counter is at its end. -/
theorem leads_accepted_while_draining {settings : TaskerSettings} {defaults : NodeDefaults}
    {session : Session} (started : (start settings defaults).Leads session) {job : TaskJob}
    (isMarker : job.kind = .marker) {next : Option JobOutcome → Tasker.Tasking Bool}
    (turn : session.worker = Tasker.execute 0 job >>= next) {controller resource : Handle}
    (isController : session.tasker.controller = some controller)
    (isResource : session.tasker.resource = some resource)
    (jobs : session.tasker.runner.lastId ≤ session.tasker.runner.lastId + 1)
    (tasks : session.tasker.engine.ids.task ≤ session.tasker.engine.ids.task + 1) :
    ∃ (index poster : Nat) (raised before after : Session) (task : TaskId),
      Drains index raised before ∧ before.Leads after ∧ Drains index raised after ∧
      before.calls[poster]? = none ∧ after.calls[poster]? = some (.posting (.done (.ok task))) ∧
      after.tasker.status task = .pending := by
  obtain ⟨rest, drains⟩ := exists_drains started
  let lowered := { session with
    tasker := { session.tasker with stopping := false }
    worker := next (some .succeeded) }.withCall (.stopping rest)
  have reached : (session.withStop rest).Leads lowered :=
    .single ⟨⟨_, step_reached isMarker turn⟩, UInt64.le_refl _, UInt64.le_refl _⟩
  obtain ⟨task, final, posted, pending⟩ := leads_accepted lowered ""
    (nofun : TaskKind.pipeline ≠ .marker) isController isResource rfl jobs tasks
  have stops : lowered.calls[session.calls.length]? = some (.stopping rest) :=
    withCall_last session (.stopping rest)
  refine ⟨session.calls.length, lowered.calls.length, session.withStop rest, lowered, _, task, ?_,
    posted.leads, ?_, ?_, ?_, pending⟩
  · exact drains lowered reached stops
  · exact drains _ (reached.trans posted.leads) (withCall_earlier stops _)
  · exact List.getElem?_eq_none (Nat.le_refl _)
  · exact withCall_last { lowered with tasker := final } _

/-- A session in which the worker is about to reach a marker. -/
theorem exists_marker_taken : ∃ session job next, (start default default).Leads session ∧
    job.kind = .marker ∧ session.worker = Tasker.execute 0 job >>= next ∧
    session.tasker.controller = some 0 ∧ session.tasker.resource = some 0 ∧
    session.tasker.runner.lastId = 1 ∧ session.tasker.engine.ids.task = 200000001 := by
  obtain ⟨marker, stopped, stops, halts⟩ := leads_halts (start default default)
    (by decide) (by decide)
  have queued : stopped.runner.take.1 = some (⟨1⟩, ⟨marker, "", .marker, .empty⟩) := by
    rw [halts.enqueues.runner]
    rfl
  have idle : stopped.runner.current = none := by
    rw [halts.enqueues.runner]
    rfl
  have lastId : stopped.runner.take.2.lastId = 1 := by
    rw [halts.enqueues.runner]
    rfl
  have taken := leads_taken ((leads_begin .stop).trans stops) rfl idle queued
  have started := LeadsBy.leads (taken.trans (leads_bound _ 0 0))
  exact ⟨_, _, _, started, rfl, rfl, rfl, rfl, lastId, halts.drawn⟩

/-- A task may be posted and accepted while a stop drains. -/
theorem accepted_while_draining :
    ∃ (index poster : Nat) (raised before after : Session) (task : TaskId),
      Drains index raised before ∧ before.Leads after ∧ Drains index raised after ∧
      before.calls[poster]? = none ∧ after.calls[poster]? = some (.posting (.done (.ok task))) ∧
      after.tasker.status task = .pending := by
  obtain ⟨session, job, next, started, isMarker, turn, isController, isResource, lastId,
    lastTask⟩ := exists_marker_taken
  refine leads_accepted_while_draining started isMarker turn isController isResource ?_ ?_
  · rw [lastId]
    decide
  · rw [lastTask]
    decide

/-- A stop that nobody disturbs turns a task down. -/
theorem turned_down_after_raise :
    ∃ (index poster : Nat) (raised before after : Session) (rest : Tasker.Tasking (Outcome TaskId)),
      Drains index raised before ∧ before.calls[poster]? = some (.posting rest) ∧
      Step (.call poster) before after ∧
      (TurnsDown poster rest before after ∨
        LetsIn poster rest after ∧ ∃ other marker, raised.LetPass other marker before ∧
          (other = index → before.tasker.status marker = .running)) := by
  let ready := { start default default with
    tasker := (Tasker.new default default).bindController 0 |>.bindResource 0 }.withCall
      (.aside (.done ()))
  have bound : (start default default).Leads ready := (leads_bound (start default default) 0 0).leads
  obtain ⟨rest, drains⟩ := exists_drains bound
  have deciding := leads_deciding (ready.withStop rest) "A" (nofun : TaskKind.pipeline ≠ .marker)
    default rfl rfl
  have stops := drains _ deciding.leads (withCall_earlier (withCall_last _ _) _)
  have posting := withCall_last (ready.withStop rest)
    (.posting (Tasker.decision "A" .pipeline .empty default))
  have step := step_last (ready.withStop rest) (.posting (.step
    (fun tasker => (tasker.accept "A" .pipeline .empty default).2)
    (fun tasker => .done (tasker.accept "A" .pipeline .empty default).1) _))
  exact ⟨_, _, _, _, _, _, stops, posting, step, turned_down_while_draining stops posting step⟩

end Session

end ScreenPilot
