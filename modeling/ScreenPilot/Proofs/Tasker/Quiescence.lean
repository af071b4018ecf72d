import ScreenPilot.Proofs.Tasker.Undisturbed

/-!
# When the marker of a stop is done

A call that stops returns the identity of its marker. Once the marker is done, no
task that was accepted before the call is pending any more
(`settled_of_marker_done`). None of them is running either, unless another call
that stops has dropped the marker while the task was running: what is dropped does
not wait for the task that runs (`leads_outrun`).

The proof compares numbers of jobs. The marker's is greater than those of all
tasks accepted before, and the runner works in the order of numbers.
-/

set_option autoImplicit false

namespace ScreenPilot

namespace Session

/-- Since some moment, tasks have kept their jobs, and a call that stops, unless
it had put its marker into the queue by then, has done so behind all of them. -/
structure Since (first : Tasker) (index : Nat) (ledger : Ledger) : Prop where
  upward : first.runner.lastId ≤ ledger.tasker.runner.lastId
  carried : ∀ (task : TaskId) (id : JobId), first.jobs[task]? = some id →
    ledger.tasker.jobs[task]? = some id
  behind : ∀ marker id, ledger.stops index = .marked marker →
    ledger.tasker.jobs[marker]? = some id → first.runner.lastId < id.number

theorem Since.step {first : Tasker} {index : Nat} {mover : Mover} {before after : Ledger}
    (since : Since first index before) (sound : before.Sound)
    (step : Ledger.Step mover before after) (upward : before.tasker.Upward after.tasker) :
    Since first index after where
  upward := UInt64.le_trans since.upward upward.job
  carried := fun task id carried =>
    (sound.change step upward).job_persists (since.carried task id carried)
  behind := by
    intro marker id marked carried
    rcases step.marked_cases marked with before | ⟨drawn, enqueued⟩
    · obtain ⟨other, carriedBefore, -⟩ := sound.marked index marker before
      have same := (sound.change step upward).job_persists carriedBefore
      rw [carried] at same
      cases same
      exact since.behind marker id before carriedBefore
    · rw [enqueued] at upward carried
      have enqueues := Tasker.enqueueMarker_enqueues before.tasker marker
      have same : some id = some before.tasker.runner.nextId :=
        carried.symm.trans enqueues.job_self
      cases same
      exact UInt64.lt_of_le_of_lt since.upward (enqueues.lt_next upward)

/-- A call that stops, made in one session, has returned its marker in another. -/
structure Returns (before : Session) (index : Nat) (marker : TaskId) (after : Session) :
    Prop where
  called : before.calls[index]? = some (.stopping Tasker.postStop)
  leads : before.Leads after
  returned : after.calls[index]? = some (.stopping (.done marker))

/-! ## Ledgers -/

section Ledgers

variable {settings : TaskerSettings} {defaults : NodeDefaults} {before session after : Session}
  {ledger : Ledger} {index : Nat} {marker task : TaskId} {id : JobId}

/-- Whatever a session leads to, its ledger is one since then. -/
theorem exists_since (started : (start settings defaults).Leads before)
    (called : before.calls[index]? = some (.stopping Tasker.postStop))
    (leads : before.Leads session) :
    ∃ ledger, session.Conforms ledger ∧ ledger.Sound ∧ Since before.tasker index ledger := by
  obtain ⟨first, conforms, sound⟩ := conforms_of_start started
  have fresh : Since before.tasker index first := by
    rw [← conforms.tasker]
    refine ⟨UInt64.le_refl _, fun _ _ carried => carried, fun marker id marked => ?_⟩
    have returned := conforms.marked marked
    rw [called] at returned
    cases returned
  exact conforms.leads sound (Since before.tasker index)
    (fun _ _ _ sound step upward since => since.step sound step upward) fresh leads

/-- Once the marker is done, a task from before is not pending; and it is running only
if the marker was dropped. -/
theorem Since.settled {first : Tasker} (since : Since first index ledger) (sound : ledger.Sound)
    (marked : ledger.stops index = .marked marker)
    (done : (ledger.tasker.status marker).isDone = true)
    (carried : first.jobs[task]? = some id) (given : id.number ≤ first.runner.lastId) :
    ledger.tasker.status task ≠ .pending ∧
      (ledger.tasker.status task = .running → ledger.tasker.status marker = .stopped) := by
  obtain ⟨markerId, carriedMarker, -⟩ := sound.marked index marker marked
  have ahead : id.number < markerId.number :=
    UInt64.lt_of_le_of_lt given (since.behind marker markerId marked carriedMarker)
  rw [Tasker.status_of_job carriedMarker] at done ⊢
  rw [JobStatus.isDone_task] at done
  obtain ⟨notPending, dropped⟩ := sound.kept.ordered.fifo id markerId ahead done
  rw [Tasker.status_of_job (since.carried task id carried)]
  refine ⟨fun pending => notPending (JobStatus.task_eq_pending.mp pending), fun running => ?_⟩
  rw [dropped (JobStatus.task_eq_running.mp running)]
  rfl

/-- A marker that is returned later and has a job has been put into the queue. -/
theorem marked_of_returned (conforms : session.Conforms ledger) (sound : ledger.Sound)
    (leads : session.Leads after)
    (returned : after.calls[index]? = some (.stopping (.done marker)))
    (carried : ledger.tasker.jobs[marker]? = some id) : ledger.stops index = .marked marker := by
  by_contra notMarked
  obtain ⟨last, conforms', -, -, stillNot⟩ := conforms.leads sound
    (fun ledger => ledger.tasker.jobs[marker]? = some id ∧ ledger.stops index ≠ .marked marker)
    (by
      rintro mover ledger ledger' sound step upward ⟨carried, notMarked⟩
      refine ⟨(sound.change step upward).job_persists carried, fun marked => ?_⟩
      rcases step.marked_cases marked with before | ⟨drawn, -⟩
      · exact notMarked before
      · rw [(sound.drawn index marker drawn).1] at carried
        cases carried)
    ⟨carried, notMarked⟩ leads
  exact stillNot (conforms'.returned returned)

/-- A task that is not pending and is running later is running. -/
theorem running_of_later (started : (start settings defaults).Leads session)
    (leads : session.Leads after) (carried : session.tasker.jobs[task]? = some id)
    (notPending : session.tasker.status task ≠ .pending)
    (running : after.tasker.status task = .running) : session.tasker.status task = .running := by
  by_contra notRunning
  obtain ⟨first, conforms, sound⟩ := conforms_of_start started
  rw [← conforms.tasker] at carried notPending notRunning
  rw [Tasker.status_of_job carried] at notPending notRunning
  have rests : first.tasker.runner.Rests id :=
    ⟨(sound.kept.numbered task id carried).2,
      fun pending => notPending (JobStatus.task_eq_pending.mpr pending),
      fun running => notRunning (JobStatus.task_eq_running.mpr running)⟩
  obtain ⟨last, conforms', -, carried', rests'⟩ := conforms.leads sound
    (fun ledger => ledger.tasker.jobs[task]? = some id ∧ ledger.tasker.runner.Rests id)
    (fun _ _ _ sound step upward ⟨carried, rests⟩ =>
      have change := sound.change step upward
      ⟨change.job_persists carried, change.rests_persists sound.kept.ordered upward rests⟩)
    ⟨carried, rests⟩ leads
  rw [← conforms'.tasker, Tasker.status_of_job carried'] at running
  exact rests'.notRunning (JobStatus.task_eq_running.mp running)

end Ledgers

/-! ## The result -/

/-- Between two sessions, another call that stops has dropped a marker out of the
queue, beside a task that was running. -/
def DropsBeside (task : TaskId) (before : Session) (index : Nat) (marker : TaskId)
    (after : Session) : Prop :=
  ∃ other rest dropping dropped, other ≠ index ∧ before.Leads dropping ∧
    dropping.calls[other]? = some (.stopping rest) ∧ Step (.call other) dropping dropped ∧
    dropped.Leads after ∧ dropping.tasker.status marker = .pending ∧
    dropped.tasker.status marker = .stopped ∧ dropping.tasker.status task = .running

section Result

variable {settings : TaskerSettings} {defaults : NodeDefaults} {before after : Session}
  {index : Nat} {marker task : TaskId}

/-- A marker that is returned was not there when the call was made. -/
theorem Returns.fresh (started : (start settings defaults).Leads before)
    (returns : before.Returns index marker after) : before.tasker.status marker ≠ .stopped := by
  intro already
  obtain ⟨last, conforms, sound, since⟩ := exists_since started returns.called returns.leads
  obtain ⟨id, carried, given⟩ :=
    Tasker.job_of_status (kept_of_start started) (by rw [already]; decide)
  have marked := conforms.returned returns.returned
  exact UInt64.not_le.mpr (since.behind marker id marked (since.carried marker id carried)) given

/-- If the marker was dropped and a task from before is running, the one was dropped
beside the other. -/
theorem Returns.dropsBeside (started : (start settings defaults).Leads before)
    (returns : before.Returns index marker after) (accepted : before.tasker.status task ≠ .invalid)
    (running : after.tasker.status task = .running)
    (stopped : after.tasker.status marker = .stopped) :
    DropsBeside task before index marker after := by
  obtain ⟨id, carried, given⟩ := Tasker.job_of_status (kept_of_start started) accepted
  obtain ⟨dropping, dropped, leads, notYet, goes, nowStopped, leads'⟩ :=
    returns.leads.exists_turn (fun session => session.tasker.status marker ≠ .stopped)
      (returns.fresh started) (not_not_intro stopped)
  have nowStopped := not_not.mp nowStopped
  have leads' := leads'.leads
  have reached := (started.trans leads).tail goes
  obtain ⟨⟨mover, step⟩, upward⟩ := goes
  obtain ⟨ledger, conforms, sound, since⟩ := exists_since started returns.called leads
  obtain ⟨ledger', conforms', step'⟩ := conforms.step sound step
  rw [← conforms.tasker, ← conforms'.tasker] at upward
  rw [← conforms'.tasker] at nowStopped
  have sound' := sound.step step' upward
  have since' := since.step sound step' upward
  obtain ⟨markerId, carriedMarker, -⟩ :=
    Tasker.job_of_status sound'.kept (by rw [nowStopped]; decide)
  have marked := marked_of_returned conforms' sound' leads' returns.returned carriedMarker
  obtain ⟨other, rfl, differs, raised, cleared, pending⟩ := sound.drops_marker step' upward marked
    (by rw [conforms.tasker]; exact notYet) nowStopped
  obtain ⟨rest, found⟩ := conforms.stopping (by rw [raised]; exact nofun)
  have done : (ledger'.tasker.status marker).isDone = true := by
    rw [nowStopped]
    rfl
  have settled := since'.settled sound' marked done carried given
  have carried' := since'.carried task id carried
  rw [conforms'.tasker] at settled carried'
  have still := running_of_later reached leads' carried' settled.1 running
  rw [← conforms'.tasker, cleared] at still
  rw [conforms.tasker] at pending still
  rw [conforms'.tasker] at nowStopped
  exact ⟨other, rest, dropping, dropped, differs, leads, found, step, leads', pending, nowStopped,
    Tasker.running_of_clear still⟩

/-- **Once the marker of a stop is done, no task accepted before the call is pending;
and one is running only if another call that stops has dropped the marker beside
it.** -/
theorem settled_of_marker_done (started : (start settings defaults).Leads before)
    (returns : before.Returns index marker after)
    (done : (after.tasker.status marker).isDone = true)
    (accepted : before.tasker.status task ≠ .invalid) :
    after.tasker.status task ≠ .pending ∧
      (after.tasker.status task = .running → DropsBeside task before index marker after) := by
  obtain ⟨last, conforms, sound, since⟩ := exists_since started returns.called returns.leads
  obtain ⟨id, carried, given⟩ := Tasker.job_of_status (kept_of_start started) accepted
  rw [← conforms.tasker] at done
  have settled := since.settled sound (conforms.returned returns.returned) done carried given
  rw [conforms.tasker] at settled
  refine ⟨settled.1, fun running => ?_⟩
  exact returns.dropsBeside started accepted running (settled.2 running)

end Result

/-! ## A marker that is dropped -/

/-- **While a task runs, two stops, one after the other, lead to a session in which
the marker of the first is done and the task still runs**, if neither counter is
at its end. -/
theorem leads_outrun {settings : TaskerSettings} {defaults : NodeDefaults} {session : Session}
    (started : (start settings defaults).Leads session) {task : TaskId}
    (running : session.tasker.status task = .running)
    (jobs : session.tasker.runner.lastId.toNat + 2 < UInt64.size)
    (tasks : session.tasker.engine.ids.task.toNat + 2 < UInt64.size) :
    ∃ marker after,
      (session.withCall (.stopping Tasker.postStop)).Returns session.calls.length marker after ∧
      after.tasker.status marker = .stopped ∧ after.tasker.status task = .running := by
  have next : ∀ counter : UInt64, counter.toNat + 2 < UInt64.size →
      counter ≤ counter + 1 ∧ counter + 1 ≤ counter + 1 + 1 := by
    intro counter room
    simp only [UInt64.le_iff_toNat_le, UInt64.toNat_add, UInt64.size, UInt64.reduceToNat] at room ⊢
    omega
  obtain ⟨marker, stopped, leads, halts⟩ := leads_halts session (next _ jobs).1 (next _ tasks).1
  have upward := halts.upward (next _ jobs).1 (next _ tasks).1
  have job : stopped.runner.lastId ≤ stopped.runner.lastId + 1 := by
    rw [halts.lastId]
    exact (next _ jobs).2
  have task : stopped.engine.ids.task ≤ stopped.engine.ids.task + 1 := by
    rw [halts.drawn]
    exact (next _ tasks).2
  obtain ⟨other, again, leads', halts'⟩ := leads_halts
    ({ session with tasker := stopped }.withCall (.stopping (.done marker))) job task
  have upward' := halts'.upward job task
  have kept := kept_of_start started
  have kept' := kept_of_start ((started.trans (leads_begin .stop).leads).trans leads.leads)
  have whole := LeadsBy.leads (leads.trans ((leads_begin .stop).trans leads'))
  refine ⟨marker, _, ⟨withCall_last _ _, whole, ?_⟩, ?_, ?_⟩
  · exact withCall_earlier (withCall_last { session with tasker := again } _) _
  · exact halts'.status_of_pending upward' kept' halts.status_marker
  · exact halts'.status_of_running upward' kept' (halts.status_of_running upward kept running)

/-- A task that is posted to a tasker that is ready can come to run. -/
theorem exists_running : ∃ session task, (start default default).Leads session ∧
    session.tasker.status task = .running ∧ session.tasker.runner.lastId = 1 ∧
    session.tasker.engine.ids.task = 200000001 := by
  obtain ⟨session, task, posted⟩ := exists_posted
  have taken : session.tasker.runner.take.1 = some (⟨1⟩, ⟨task, "A", .pipeline, .empty⟩) := by
    rw [posted.runner]
    rfl
  have begun := (leads_taken posted.leads posted.worker posted.current taken).leads
  have running := (kept_of_start begun).status_of_current (Runner.current_take taken)
  refine ⟨_, task, begun, running, ?_, posted.drawn⟩
  show session.tasker.runner.take.2.lastId = 1
  rw [posted.runner]
  rfl

/-- The two together: a task runs, and two stops pass it by. -/
theorem exists_outrun : ∃ before index marker after task,
    (start default default).Leads before ∧ before.Returns index marker after ∧
    after.tasker.status marker = .stopped ∧ before.tasker.status task = .running ∧
    after.tasker.status task = .running := by
  obtain ⟨session, task, started, running, lastId, lastTask⟩ := exists_running
  obtain ⟨marker, after, returns, dropped, still⟩ :=
    leads_outrun started running (by rw [lastId]; decide) (by rw [lastTask]; decide)
  exact ⟨_, session.calls.length, marker, after, task, started.trans (leads_begin .stop).leads,
    returns, dropped, running, still⟩

/-- The marker of a stop may be done while a task that was accepted before the call
is running. -/
theorem marker_done_while_running : ∃ before index marker after task,
    (start default default).Leads before ∧ before.Returns index marker after ∧
    (after.tasker.status marker).isDone = true ∧ before.tasker.status task ≠ .invalid ∧
    after.tasker.status task = .running := by
  obtain ⟨before, index, marker, after, task, started, returns, dropped, running, still⟩ :=
    exists_outrun
  refine ⟨before, index, marker, after, task, started, returns, ?_, ?_, still⟩
  · rw [dropped]
    rfl
  · rw [running]
    decide

/-- In such a session another call has dropped the marker beside the task. -/
theorem settled_of_marker_done_outrun : ∃ before index marker after task,
    (start default default).Leads before ∧ before.Returns index marker after ∧
    (after.tasker.status marker).isDone = true ∧ before.tasker.status task ≠ .invalid ∧
    after.tasker.status task ≠ .pending ∧
      (after.tasker.status task = .running → DropsBeside task before index marker after) := by
  obtain ⟨before, index, marker, after, task, started, returns, dropped, running, -⟩ :=
    exists_outrun
  have done : (after.tasker.status marker).isDone = true := by
    rw [dropped]
    rfl
  have accepted : before.tasker.status task ≠ .invalid := by
    rw [running]
    decide
  exact ⟨before, index, marker, after, task, started, returns, done, accepted,
    settled_of_marker_done started returns done accepted⟩

end Session

end ScreenPilot
