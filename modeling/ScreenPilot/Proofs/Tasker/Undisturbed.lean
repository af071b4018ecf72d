import ScreenPilot.Proofs.Tasker.Books

/-!
# Calls that nobody disturbs

A call may go all its way before anyone else moves, and a session leads to the
one in which the call is over (`Session.leads_over`). So to show that a session
leads somewhere, one says how each call ends by itself: a task that is accepted
is at the end of the queue, and after a stop the marker is alone in it.
-/

set_option autoImplicit false

namespace ScreenPilot

open Activity

namespace Activity

variable {interface : Interface} {σ α : Type} {kind : σ → σ → Prop} {setting : Setting σ}

/-- An activity that gets its answers comes to an end, and if its steps are all of
one kind, so is all that it has done. -/
theorem Steps.exists_ends {activity : Activity interface σ α} (steps : activity.Steps kind)
    (answers : ∀ question, Nonempty (interface.Answer question))
    (others : ∀ state, setting.others state state)
    (own : ∀ before after, kind before after → setting.own before after)
    (refl : ∀ state, kind state state)
    (trans : ∀ first second third, kind first second → kind second third → kind first third)
    (state : σ) : ∃ value final, activity.Ends setting state value final ∧ kind state final := by
  induction activity generalizing state with
  | done value => exact ⟨value, state, .done value state, refl state⟩
  | step change next ih =>
    obtain ⟨value, final, ends, whole⟩ := ih state (steps state).2 (change state)
    exact ⟨value, final, .step (others state) (own _ _ (steps state).1) ends,
      trans _ _ _ (steps state).1 whole⟩
  | ask question next ih =>
    obtain ⟨answer⟩ := answers question
    obtain ⟨value, final, ends, whole⟩ := ih answer (steps answer) state
    exact ⟨value, final, .ask answer ends, whole⟩

end Activity

/-- Every question of the engine has an answer. -/
theorem Engine.nonempty_answer (question : Engine.Question) :
    Nonempty (Engine.outside.Answer question) := by
  cases question with
  | now => exact ⟨(0 : Nat)⟩
  | date => exact ⟨(default : Timestamp)⟩
  | rest | haltController | haltResource => exact ⟨()⟩
  | isConnected | isLoaded => exact ⟨true⟩
  | graph => exact ⟨Graph.empty⟩
  | recognitionPlugIn | actionPlugIn => exact ⟨(none : Option Handle)⟩
  | capture => exact ⟨(.crashed : Reply (Option Frame))⟩
  | analyze | recognize => exact ⟨(.crashed : Reply (Option Recognition))⟩
  | send | perform | act | awaitStill => exact ⟨(.crashed : Reply Bool)⟩

namespace Tasker

variable {tasker before after : Tasker}

theorem Upward.refl (tasker : Tasker) : Upward tasker tasker :=
  ⟨UInt64.le_refl _, UInt64.le_refl _⟩

theorem Aside.upward (aside : before.Aside after) : before.Upward after where
  job := by
    rw [aside.runner]
    exact UInt64.le_refl _
  task := by
    rw [aside.task]
    exact UInt64.le_refl _

/-- A step goes upward if it changes nothing or is one of those that do. -/
theorem upward_of_own (own : before = after ∨ before.Upward after) : before.Upward after := by
  rcases own with rfl | upward
  · exact .refl _
  · exact upward

/-- Nobody else moves. -/
def undisturbed : Setting Tasker := ⟨Eq, Upward⟩

/-- What only takes steps aside comes to an end. -/
theorem exists_ends_aside {α : Type} {activity : Tasking α} (steps : activity.Steps Aside)
    (tasker : Tasker) :
    ∃ value final, activity.Ends undisturbed tasker value final ∧ tasker.Aside final :=
  steps.exists_ends Engine.nonempty_answer (fun _ => rfl) (fun _ _ => Aside.upward) Aside.refl
    (fun _ _ _ => Aside.trans) tasker

theorem exists_ends_apart {α : Type} {activity : Tasking α} (steps : activity.Steps Apart)
    (tasker : Tasker) :
    ∃ value final, activity.Ends undisturbed tasker value final ∧ tasker.Apart final :=
  steps.exists_ends Engine.nonempty_answer (fun _ => rfl) (fun _ _ apart => apart.aside.upward)
    Apart.refl (fun _ _ _ => Apart.trans) tasker

theorem ends_transact {α : Type} {act : Tasker → α × Tasker}
    (upward : tasker.Upward (act tasker).2) :
    (transact act : Tasking α).Ends undisturbed tasker (act tasker).1 (act tasker).2 :=
  .step rfl upward (.done _ _)

theorem ends_modify {change : Tasker → Tasker} (upward : tasker.Upward (change tasker)) :
    (Activity.modify change : Tasking Unit).Ends undisturbed tasker () (change tasker) :=
  .step rfl upward (.done _ _)

theorem ends_reads {α : Type} (part : Tasker → α) (tasker : Tasker) :
    (reads part : Tasking α).Ends undisturbed tasker (part tasker) tasker :=
  .step rfl (.refl tasker) (.done _ _)

/-! ## Working -/

/-- The checks pass if a controller and a resource are bound. -/
theorem checkReady_ends {controller resource : Handle}
    (isController : tasker.controller = some controller)
    (isResource : tasker.resource = some resource) :
    checkReady.Ends undisturbed tasker (.ok ()) tasker := by
  refine ends_bind.mpr ⟨some resource, tasker, isResource ▸ ends_reads _ tasker, ?_⟩
  refine ends_bind.mpr ⟨true, tasker, .ask true (.done _ _), ?_⟩
  refine ends_bind.mpr ⟨some controller, tasker, isController ▸ ends_reads _ tasker, ?_⟩
  exact ends_bind.mpr ⟨true, tasker, .ask true (.done _ _), .done _ _⟩

/-! ## Stopping -/

/-- What a stop that nobody disturbs has done: only its marker is queued. -/
structure Halts (marker : TaskId) (before after : Tasker) : Prop where
  next : marker.number = before.engine.ids.task + 1
  drawn : after.engine.ids.task = before.engine.ids.task + 1
  enqueues : Enqueues ⟨marker, "", .marker, .empty⟩
    { before with runner := before.runner.clear.2, stopping := true } after
  /-- Where nothing is queued, nothing is put on record. -/
  standing : before.runner.queue = [] → ∀ task, after.standing task = before.standing task

/-- A call that stops and has told the tasker to turn posts down comes to its end. -/
theorem signalling_ends (tasker : Tasker)
    (job : tasker.runner.lastId ≤ tasker.runner.lastId + 1)
    (task : tasker.engine.ids.task ≤ tasker.engine.ids.task + 1) :
    ∃ marker final, signalling.Ends undisturbed { tasker with stopping := true } marker final ∧
      tasker.Halts marker final := by
  have signalled := aside_signalAll { tasker with stopping := true }
  obtain ⟨_, halted, halts, apart⟩ := exists_ends_apart apart_haltOutside
    (signalAll { tasker with stopping := true })
  have aside := signalled.trans apart.aside
  obtain ⟨_, dropped, drops, aside'⟩ := exists_ends_aside
    (aside_stopDropped halted.tasks halted.runner.clear.1)
    { halted with runner := halted.runner.clear.2 }
  have runner : dropped.runner = tasker.runner.clear.2 := by
    rw [aside'.runner, aside.runner]
  have drawn : dropped.engine.ids.task = tasker.engine.ids.task := by
    rw [aside'.task]
    exact aside.task
  have jobs : dropped.jobs = tasker.jobs := by
    rw [aside'.jobs]
    exact aside.jobs
  refine ⟨dropped.drawTask.1, dropped.drawTask.2.enqueueMarker dropped.drawTask.1, ?_, ?_⟩
  · refine ends_bind.mpr ⟨(), _, ends_modify signalled.upward, ?_⟩
    refine ends_bind.mpr ⟨(), halted, halts, ?_⟩
    refine ends_bind.mpr ⟨_, _, ends_transact ⟨UInt64.le_refl _, UInt64.le_refl _⟩, ?_⟩
    refine ends_bind.mpr ⟨_, _, ends_reads _ _, ?_⟩
    refine ends_bind.mpr ⟨(), dropped, drops, ?_⟩
    refine ends_bind.mpr ⟨_, _, ends_transact ⟨UInt64.le_refl _, ?_⟩, ?_⟩
    · show dropped.engine.ids.task ≤ dropped.engine.ids.task + 1
      rw [drawn]
      exact task
    refine ends_bind.mpr ⟨(), _, ends_modify ⟨?_, UInt64.le_refl _⟩, .done _ _⟩
    show dropped.runner.lastId ≤ dropped.runner.lastId + 1
    rw [runner]
    exact job
  · refine ⟨?_, ?_, ⟨?_, ?_, ?_⟩, ?_⟩
    · show dropped.engine.ids.task + 1 = _
      rw [drawn]
    · show dropped.engine.ids.task + 1 = _
      rw [drawn]
    · show (dropped.runner.post _).2 = _
      rw [runner]
    · show dropped.jobs.insert dropped.drawTask.1 dropped.runner.nextId = _
      rw [jobs, runner]
      rfl
    · show dropped.stopping = true
      rw [aside'.stopping]
      exact aside.stopping
    · intro nothing task
      have none : halted.runner.clear.1 = [] := by
        rw [aside.runner]
        exact congrArg (List.map Prod.fst) nothing
      rw [none] at drops
      cases drops
      exact (apart.stands task).trans (standing_signalAll _ task)

/-- A call that stops comes to its end. -/
theorem postStop_ends (tasker : Tasker)
    (job : tasker.runner.lastId ≤ tasker.runner.lastId + 1)
    (task : tasker.engine.ids.task ≤ tasker.engine.ids.task + 1) :
    ∃ marker final, postStop.Ends undisturbed tasker marker final ∧
      tasker.Halts marker final := by
  obtain ⟨marker, final, ends, halts⟩ := signalling_ends tasker job task
  have raises : (Activity.modify fun tasker => { tasker with stopping := true } :
      Tasking Unit).Ends undisturbed tasker () { tasker with stopping := true } :=
    ends_modify ⟨UInt64.le_refl _, UInt64.le_refl _⟩
  rw [postStop_eq]
  exact ⟨marker, final, ends_bind.mpr ⟨(), _, raises, ends⟩, halts⟩

section Halts

variable {marker task : TaskId} (halts : before.Halts marker after) (increase : before.Upward after)
  (kept : before.Kept)

include halts

theorem Halts.lastId : after.runner.lastId = before.runner.lastId + 1 := by
  rw [halts.enqueues.runner]
  rfl

theorem Halts.upward (job : before.runner.lastId ≤ before.runner.lastId + 1)
    (task : before.engine.ids.task ≤ before.engine.ids.task + 1) : before.Upward after where
  job := by
    rw [halts.lastId]
    exact job
  task := by
    rw [halts.drawn]
    exact task

theorem Halts.status_marker : after.status marker = .pending := halts.enqueues.status_self

include increase kept

/-- A task stands as what the stop dropped makes it. -/
theorem Halts.status_of_job {id : JobId} (carried : before.jobs[task]? = some id) :
    after.status task = (before.runner.clear.2.status id).task := by
  obtain ⟨drawn, given⟩ := kept.numbered task id carried
  have above : before.engine.ids.task < marker.number := by
    have upward := increase.task
    rw [halts.drawn] at upward
    rw [halts.next]
    exact Runner.lt_next upward
  have differs : task ≠ marker := by
    rintro rfl
    exact UInt64.not_le.mpr above drawn
  have later : before.runner.nextId ≠ id :=
    Runner.nextId_ne (halts.enqueues.lt_next ⟨increase.job, increase.task⟩) given
  rw [Tasker.status_of_job ((halts.enqueues.job_of_ne differs).trans carried),
    halts.enqueues.status id later]

/-- A task that is pending is dropped. -/
theorem Halts.status_of_pending (pending : before.status task = .pending) :
    after.status task = .stopped := by
  obtain ⟨id, carried, -⟩ := job_of_status kept (by rw [pending]; decide)
  rw [Tasker.status_of_job carried] at pending
  have queued := (kept.ordered.pending id).mp (JobStatus.task_eq_pending.mp pending)
  rw [halts.status_of_job increase kept carried, Runner.status_clear, if_pos queued]
  rfl

/-- A task that runs goes on. -/
theorem Halts.status_of_running (running : before.status task = .running) :
    after.status task = .running := by
  obtain ⟨id, carried, -⟩ := job_of_status kept (by rw [running]; decide)
  have statuses := Tasker.status_of_job carried
  rw [running] at statuses
  have begun := JobStatus.task_eq_running.mp statuses.symm
  have notQueued : id ∉ before.runner.queue.map Prod.fst := by
    intro queued
    have pending := (kept.ordered.pending id).mpr queued
    rw [begun] at pending
    cases pending
  rw [halts.status_of_job increase kept carried, Runner.status_clear, if_neg notQueued, begun]
  rfl

end Halts

end Tasker

/-! ## Sessions -/

namespace Session

/-- The session with one more call. -/
def withCall (session : Session) (call : Call) : Session :=
  { session with calls := session.calls ++ [call] }

variable {session : Session}

@[simp] theorem withCall_last (session : Session) (call : Call) :
    (session.withCall call).calls[session.calls.length]? = some call :=
  List.getElem?_concat_length

/-- The calls before it stay where they are. -/
theorem withCall_earlier {index : Nat} {earlier : Call}
    (found : session.calls[index]? = some earlier) (call : Call) :
    (session.withCall call).calls[index]? = some earlier := by
  obtain ⟨within, -⟩ := List.getElem?_eq_some_iff.mp found
  exact (List.getElem?_append_left within).trans found

theorem leads_begin {call : Call} (begins : call.Begins) :
    session.LeadsBy Orderly (session.withCall call) :=
  .single ⟨_, .begin begins, .refl _, orderly_begin _ _⟩

/-- The call that began last moves. -/
theorem step_last (session : Session) {call call' : Call} {tasker : Tasker}
    (moves : call.Moves session.tasker call' tasker) :
    Step (.call session.calls.length) (session.withCall call)
      ({ session with tasker }.withCall call') := by
  have step := Step.call (withCall_last session call) moves
  simp only [withCall, List.set_append_right _ _ (Nat.le_refl _), Nat.sub_self] at step
  exact step

/-- A call that posts or stops goes all its way. -/
theorem leads_over {α : Type} {rest : Tasker.Tasking α} {value : α} {final : Tasker}
    (wrap : Tasker.Tasking α → Call) (notAside : ∀ activity rest, wrap activity ≠ .aside rest)
    (moves : ∀ {activity rest : Tasker.Tasking α} {before after : Tasker},
      activity.Moves before rest after → (wrap activity).Moves before (wrap rest) after)
    (ends : rest.Ends Tasker.undisturbed session.tasker value final) :
    (session.withCall (wrap rest)).LeadsBy Orderly
      ({ session with tasker := final }.withCall (wrap (.done value))) := by
  refine ends.induct (fun rest tasker => (session.withCall (wrap _)).LeadsBy Orderly
    ({ session with tasker }.withCall (wrap rest))) .refl (fun _ _ same => same) ?_
  intro activity rest before after move own leads
  have found := withCall_last { session with tasker := before } (wrap activity)
  exact leads.tail ⟨_, step_last { session with tasker := before } (moves move),
    Tasker.upward_of_own own, orderly_call found (notAside activity)⟩

/-- A call that posts or stops goes through a part of its way. -/
theorem leads_through (session : Session) {α β : Type} {first : Tasker.Tasking α} {value : α}
    {final : Tasker} (wrap : Tasker.Tasking β → Call) (notAside : ∀ activity rest, wrap activity ≠ .aside rest)
    (moves : ∀ {activity rest : Tasker.Tasking β} {before after : Tasker},
      activity.Moves before rest after → (wrap activity).Moves before (wrap rest) after)
    (next : α → Tasker.Tasking β)
    (ends : first.Ends Tasker.undisturbed session.tasker value final) :
    (session.withCall (wrap (first >>= next))).LeadsBy Orderly
      ({ session with tasker := final }.withCall (wrap (next value))) :=
  leads_over (fun rest => wrap (rest >>= next)) (fun _ => notAside _)
    (fun move => moves (move.bind next)) ends

/-- A stop that nobody disturbs. -/
theorem leads_halts (session : Session)
    (job : session.tasker.runner.lastId ≤ session.tasker.runner.lastId + 1)
    (task : session.tasker.engine.ids.task ≤ session.tasker.engine.ids.task + 1) :
    ∃ marker final, (session.withCall (.stopping Tasker.postStop)).LeadsBy Orderly
        ({ session with tasker := final }.withCall (.stopping (.done marker))) ∧
      session.tasker.Halts marker final := by
  obtain ⟨marker, final, ends, halts⟩ := Tasker.postStop_ends session.tasker job task
  exact ⟨marker, final, leads_over .stopping nofun .stopping ends, halts⟩

/-- The session after the first step of a call that stops, of which a rest is left. -/
def withStop (session : Session) (rest : Tasker.Tasking TaskId) : Session :=
  { session with
    tasker := { session.tasker with stopping := true } }.withCall (.stopping rest)

/-- A call that stops begins and tells the tasker to turn posts down. -/
theorem leads_withStop (session : Session) :
    session.LeadsBy Orderly (session.withStop Tasker.signalling) :=
  (leads_begin .stop).tail ⟨_, step_last session (.stopping (.step _ _ _)),
    ⟨UInt64.le_refl _, UInt64.le_refl _⟩, orderly_call (withCall_last session _) nofun⟩

/-- It asks tasks to stop, and nobody disturbs it from there on. -/
theorem leads_signalled (session : Session)
    (job : session.tasker.runner.lastId ≤ session.tasker.runner.lastId + 1)
    (task : session.tasker.engine.ids.task ≤ session.tasker.engine.ids.task + 1) :
    ∃ signalled marker final,
      Step (.call session.calls.length) (session.withStop Tasker.signalling) signalled ∧
      signalled.LeadsBy Orderly
        ({ session with tasker := final }.withCall (.stopping (.done marker))) ∧
      session.tasker.Halts marker final := by
  obtain ⟨marker, final, ends, halts⟩ := Tasker.signalling_ends session.tasker job task
  cases ends with
  | step others own rest =>
    cases others
    have signals := step_last { session with tasker := { session.tasker with stopping := true } }
      (.stopping (.step Tasker.signalAll (fun _ => Tasker.halting) _))
    have goes : LeadsBy Orderly ({ session with
          tasker := Tasker.signalAll { session.tasker with stopping := true }
        }.withCall (.stopping Tasker.halting))
        ({ session with tasker := final }.withCall (.stopping (.done marker))) :=
      leads_over .stopping nofun .stopping rest
    exact ⟨_, marker, final, signals, goes, halts⟩

/-- A call that stops comes to have dropped what is queued, and no record has changed. -/
theorem leads_cleared (session : Session) :
    ∃ cleared, session.LeadsBy Orderly ({ session with tasker := cleared }.withCall
        (.stopping (Tasker.recording session.tasker.runner.clear.1))) ∧
      cleared.runner = session.tasker.runner.clear.2 ∧
      cleared.engine.ids.task = session.tasker.engine.ids.task ∧
      ∀ task, cleared.standing task = session.tasker.standing task := by
  let raised : Tasker := { session.tasker with stopping := true }
  have aside := Tasker.aside_signalAll raised
  obtain ⟨_, halted, halts, apart⟩ := Tasker.exists_ends_apart Tasker.apart_haltOutside
    raised.signalAll
  have runner : halted.runner = session.tasker.runner := apart.aside.runner.trans aside.runner
  let cleared : Tasker := { halted with runner := halted.runner.clear.2 }
  have signals := leads_through { session with tasker := raised } .stopping nofun .stopping
    (fun _ => Tasker.halting) (Tasker.ends_modify aside.upward)
  have hushes := leads_through { session with tasker := raised.signalAll } .stopping nofun
    .stopping (fun _ => Tasker.clearing) halts
  have drops : (Activity.transact fun tasker => (tasker.runner.clear.1,
        { tasker with runner := tasker.runner.clear.2 }) : Tasker.Tasking (List JobId)).Ends
      Tasker.undisturbed halted halted.runner.clear.1 cleared :=
    Tasker.ends_transact ⟨UInt64.le_refl _, UInt64.le_refl _⟩
  have clears := leads_through { session with tasker := halted } .stopping nofun .stopping
    Tasker.recording drops
  rw [runner] at clears
  refine ⟨cleared, (leads_withStop session).trans (signals.trans (hushes.trans clears)), ?_, ?_, ?_⟩
  · exact congrArg (fun runner => runner.clear.2) runner
  · exact apart.aside.task.trans aside.task
  · exact fun task => (apart.stands task).trans (Tasker.standing_signalAll raised task)

/-- A controller and a resource are bound. -/
theorem leads_bound (session : Session) (controller resource : Handle) :
    session.LeadsBy Orderly ({ session with
      tasker := (session.tasker.bindController controller).bindResource resource }.withCall
        (.aside (.done ()))) := by
  let bind : Tasker → Tasker := fun tasker =>
    (tasker.bindController controller).bindResource resource
  have apart : ∀ tasker : Tasker, tasker.Apart (bind tasker) := fun tasker =>
    ((Tasker.Sets.controller controller).apart tasker).trans
      ((Tasker.Sets.resource resource).apart _)
  have begins : Call.Begins (.aside (Activity.modify bind)) :=
    .aside fun tasker => ⟨(apart tasker).aside, trivial⟩
  have moves : Call.Moves (.aside (Activity.modify bind)) session.tasker (.aside (.done ()))
      (bind session.tasker) :=
    .aside (.step _ _ _)
  refine (leads_begin begins).tail ⟨_, step_last session moves, (apart _).aside.upward, ?_⟩
  exact ⟨fun _ _ _ _ => apart _, nofun, nofun⟩

/-- A call that posts a task without overrides comes to decide. -/
theorem leads_deciding (session : Session) (entry : String) {kind : TaskKind}
    (isTask : kind ≠ .marker) (now : Timestamp) {controller resource : Handle}
    (isController : session.tasker.controller = some controller)
    (isResource : session.tasker.resource = some resource) :
    session.LeadsBy Orderly
      (session.withCall (.posting (Tasker.decision entry kind .empty now))) := by
  have through : ∀ {α : Type} {first : Tasker.Tasking α} {value : α}
      (next : α → Tasker.Tasking (Outcome TaskId)),
      first.Ends Tasker.undisturbed session.tasker value session.tasker →
      (session.withCall (.posting (first >>= next))).LeadsBy Orderly
        (session.withCall (.posting (next value))) :=
    fun next ends => leads_through session .posting nofun .posting next ends
  have ready := Tasker.checkReady_ends isController isResource
  have defaults := Tasker.ends_reads Tasker.defaults session.tasker
  have date : (Tasker.withEngine Engine.date).Ends Tasker.undisturbed session.tasker now
      session.tasker :=
    .ask now (.done _ _)
  refine (leads_begin (.post entry .null isTask)).trans ((through _ ready).trans ?_)
  exact (through _ defaults).trans (through _ date)

/-- A task without overrides is posted. -/
theorem leads_posted (entry : String) {kind : TaskKind} (isTask : kind ≠ .marker)
    (now : Timestamp) {controller resource : Handle}
    (isController : session.tasker.controller = some controller)
    (isResource : session.tasker.resource = some resource)
    (upward : session.tasker.Upward (session.tasker.accept entry kind .empty now).2) :
    session.LeadsBy Orderly ({ session with
      tasker := (session.tasker.accept entry kind .empty now).2 }.withCall
        (.posting (.done (session.tasker.accept entry kind .empty now).1))) :=
  (leads_deciding session entry isTask now isController isResource).trans
    (leads_over .posting nofun .posting (Tasker.ends_transact upward))

/-- A task without overrides is accepted if the tasker is not stopping. -/
theorem leads_accepted (session : Session) (entry : String) {kind : TaskKind}
    (isTask : kind ≠ .marker) {controller resource : Handle}
    (isController : session.tasker.controller = some controller)
    (isResource : session.tasker.resource = some resource)
    (going : session.tasker.stopping = false)
    (job : session.tasker.runner.lastId ≤ session.tasker.runner.lastId + 1)
    (task : session.tasker.engine.ids.task ≤ session.tasker.engine.ids.task + 1) :
    ∃ accepted final, session.LeadsBy Orderly ({ session with tasker := final }.withCall
        (.posting (.done (.ok accepted)))) ∧ final.status accepted = .pending := by
  obtain ⟨accepted, rfl, -, isOk, drawn, enqueues⟩ :=
    Tasker.accept_enqueues going entry kind .empty default
  have posted := leads_posted entry isTask default isController isResource (by
    constructor
    · rw [enqueues.runner]
      exact job
    · rw [drawn]
      exact task)
  rw [isOk] at posted
  exact ⟨accepted.task, _, posted, enqueues.status_self⟩

/-- The worker begins its turn and takes a job. -/
theorem leads_taken {first : Session} (leads : first.LeadsBy Orderly session) {served : Bool}
    (idle : session.worker = .done served)
    (free : session.tasker.runner.current = none) {id : JobId} {job : TaskJob}
    (taken : session.tasker.runner.take.1 = some (id, job)) :
    first.LeadsBy Orderly { session with
      tasker := { session.tasker with runner := session.tasker.runner.take.2 }
      worker := Tasker.execute 0 job >>= WorkStage.afterwards id } := by
  have moves : (Tasker.serve 0).Moves session.tasker _
      { session.tasker with runner := session.tasker.runner.take.2 } := .step _ _ _
  simp only [taken] at moves
  have taskless : ∀ id job, session.tasker.runner.current = some (id, job) →
      job.kind = .marker := by
    rw [free]
    intro id job current
    cases current
  have upward : session.tasker.runner.lastId ≤ session.tasker.runner.take.2.lastId := by
    rcases session.tasker.runner.take_cases with same | ⟨first, rest, -, took⟩
    · rw [same]
      exact UInt64.le_refl _
    · rw [took]
      exact UInt64.le_refl _
  have quiet : ∀ question next, session.worker ≠ .ask question next := by
    rw [idle]
    intro question next asks
    cases asks
  have quiet' : ∀ question next, Tasker.serve 0 ≠ .ask question next := by
    intro question next asks
    cases asks
  let serving : Session := { session with worker := Tasker.serve 0 }
  let begun : Session := { session with
    tasker := { session.tasker with runner := session.tasker.runner.take.2 }
    worker := Tasker.execute 0 job >>= WorkStage.afterwards id }
  have serves : first.LeadsBy Orderly serving :=
    leads.tail ⟨_, .serve 0 idle free, .refl _, orderly_work quiet taskless⟩
  have takes : Step .worker serving begun := .work moves
  have orderly : Orderly .worker serving begun := orderly_work quiet' taskless
  exact serves.tail ⟨_, takes, ⟨upward, UInt64.le_refl _⟩, orderly⟩

/-- At a marker the worker lets posts pass. -/
theorem step_reached {job : TaskJob} (isMarker : job.kind = .marker)
    {next : Option JobOutcome → Tasker.Tasking Bool}
    (turn : session.worker = Tasker.execute 0 job >>= next) :
    Step .worker session { session with
      tasker := { session.tasker with stopping := false }
      worker := next (some .succeeded) } := by
  have executes : Tasker.execute 0 job = (do
      Activity.modify fun tasker => { tasker with stopping := false }
      pure (some .succeeded)) := if_pos isMarker
  have moves : session.worker.Moves session.tasker (next (some .succeeded))
      { session.tasker with stopping := false } := by
    rw [turn, executes]
    exact .step _ _ _
  exact .work moves

/-- The worker takes a marker, lets posts pass and ends its turn. -/
theorem leads_served {first : Session} (leads : first.LeadsBy Orderly session) {served : Bool}
    (idle : session.worker = .done served) (free : session.tasker.runner.current = none)
    {id : JobId} {job : TaskJob} (taken : session.tasker.runner.take.1 = some (id, job))
    (isMarker : job.kind = .marker) :
    first.LeadsBy Orderly { session with
      tasker := { session.tasker with
        stopping := false
        runner := session.tasker.runner.take.2.finish id .succeeded }
      worker := .done true } := by
  let begun : Session := { session with
    tasker := { session.tasker with runner := session.tasker.runner.take.2 }
    worker := Tasker.execute 0 job >>= WorkStage.afterwards id }
  let reached : Session := { begun with
    tasker := { begun.tasker with stopping := false }
    worker := WorkStage.afterwards id (some .succeeded) }
  let finished : Session := { reached with
    tasker := { reached.tasker with runner := reached.tasker.runner.finish id .succeeded }
    worker := .done true }
  have taskless : ∀ other held, begun.tasker.runner.current = some (other, held) →
      held.kind = .marker := by
    intro other held same
    rw [Runner.current_take taken] at same
    cases same
    exact isMarker
  have quiet : ∀ question next, begun.worker ≠ .ask question next := by
    intro question next asks
    simp only [begun, Tasker.execute, if_pos isMarker] at asks
    cases asks
  have quiet' : ∀ question next, reached.worker ≠ .ask question next := by
    intro question next asks
    cases asks
  have begins : first.LeadsBy Orderly begun := leads_taken leads idle free taken
  have reaches : Step .worker begun reached := step_reached isMarker rfl
  have ends : Step .worker reached finished := .work (.step _ _ _)
  have upward : begun.tasker.Upward reached.tasker := ⟨UInt64.le_refl _, UInt64.le_refl _⟩
  have upward' : reached.tasker.Upward finished.tasker := ⟨UInt64.le_refl _, UInt64.le_refl _⟩
  have lets : first.LeadsBy Orderly reached :=
    begins.tail ⟨_, reaches, upward, orderly_work quiet taskless⟩
  exact lets.tail ⟨_, ends, upward', orderly_work quiet' taskless⟩

/-- After a stop that nobody disturbed, the worker reaches its marker, and then there is
nothing left to do. -/
theorem leads_emptied {first : Session} {marker : TaskId} {stopped : Tasker}
    (halts : session.tasker.Halts marker stopped)
    (leads : first.LeadsBy Orderly
      ({ session with tasker := stopped }.withCall (.stopping (.done marker))))
    {served : Bool} (idle : session.worker = .done served)
    (free : session.tasker.runner.current = none)
    (goesOn : session.tasker.runner.closed = false) :
    ∃ final, first.LeadsBy Orderly ({ session with
      tasker := final, worker := .done true }.withCall (.stopping (.done marker))) ∧
      final.isRunning = false ∧ ∀ task, final.standing task = stopped.standing task := by
  have queued : stopped.runner.take = (some (session.tasker.runner.nextId,
      ⟨marker, "", .marker, .empty⟩), { stopped.runner with
        queue := []
        current := some (session.tasker.runner.nextId, ⟨marker, "", .marker, .empty⟩)
        statuses := stopped.runner.statuses.insert session.tasker.runner.nextId .running }) := by
    rw [halts.enqueues.runner]
    exact if_neg (by rw [Bool.not_eq_true]; exact goesOn)
  have still : stopped.runner.current = none := by
    rw [halts.enqueues.runner]
    exact free
  have reached := leads_served leads idle still (congrArg Prod.fst queued) rfl
  refine ⟨_, reached, ?_, fun _ => rfl⟩
  show (stopped.runner.take.2.finish _ _).isRunning = false
  rw [queued]
  rfl

/-- Nothing has happened but that a task was posted. -/
structure Posted (task : TaskId) (session : Session) : Prop where
  leads : (start default default).LeadsBy Orderly session
  calls : session.calls = [.aside (.done ()), .posting (.done (.ok task))]
  worker : session.worker = .done false
  runner : session.tasker.runner = (Runner.new.post ⟨task, "A", .pipeline, .empty⟩).2
  drawn : session.tasker.engine.ids.task = 200000001
  standing : session.tasker.standing task = some (.pending, false)

theorem exists_posted : ∃ session task, Posted task session := by
  have bound := leads_bound (start default default) 0 0
  have posted := bound.trans (leads_posted "A" (nofun : TaskKind.pipeline ≠ .marker) default
    rfl rfl ⟨by decide, by decide⟩)
  refine ⟨_, _, posted, rfl, rfl, rfl, rfl, ?_⟩
  exact (Tasker.standing_accept rfl "A" .pipeline .empty default _).trans (if_pos rfl)

namespace Posted

variable {task : TaskId} (posted : Posted task session)

include posted

theorem current : session.tasker.runner.current = none := by
  rw [posted.runner]
  rfl

theorem goesOn : session.tasker.runner.closed = false := by
  rw [posted.runner]
  rfl

theorem job_upward : session.tasker.runner.lastId ≤ session.tasker.runner.lastId + 1 := by
  have lastId : session.tasker.runner.lastId = 1 := by
    rw [posted.runner]
    rfl
  rw [lastId]
  decide

theorem returned : session.calls[1]? = some (.posting (.done (.ok task))) := by
  rw [posted.calls]
  rfl

theorem task_upward : session.tasker.engine.ids.task ≤ session.tasker.engine.ids.task + 1 := by
  rw [posted.drawn]
  decide

end Posted

/-- A task is posted, a stop drops it, and the worker reaches the marker of the stop. -/
theorem exists_dropped : ∃ session task marker, (start default default).LeadsBy Orderly session ∧
    session.calls[1]? = some (.posting (.done (.ok task))) ∧
    session.calls[2]? = some (.stopping (.done marker)) ∧ session.Unhalted ∧
    session.tasker.isRunning = false ∧ session.tasker.controller.isSome ∧
    session.tasker.resource.isSome := by
  obtain ⟨session, task, posted⟩ := exists_posted
  obtain ⟨marker, stopped, halted, halts⟩ :=
    leads_halts session posted.job_upward posted.task_upward
  obtain ⟨final, emptied, nothing, -⟩ :=
    leads_emptied halts (posted.leads.trans ((leads_begin .stop).trans halted)) posted.worker
      posted.current posted.goesOn
  have calls : session.calls ++ [.stopping (.done marker)] ++ [.aside (.done ())] =
      [.aside (.done ()), .posting (.done (.ok task)), .stopping (.done marker),
        .aside (.done ())] := by
    rw [posted.calls]
    rfl
  refine ⟨_, task, marker, emptied.trans (leads_bound _ 0 0), ?_, ?_, ?_, nothing, rfl, rfl⟩
  · exact (congrArg (·[1]?) calls).trans rfl
  · exact (congrArg (·[2]?) calls).trans rfl
  · intro index rest found
    have found := (congrArg (·[index]?) calls).symm.trans found
    rcases index with _ | _ | _ | _ | index
    · cases found
    · cases found
    · cases found
      exact ⟨marker, rfl⟩
    · cases found
    · cases found

end Session

end ScreenPilot
