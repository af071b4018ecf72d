import Mathlib.Logic.Function.Basic
import ScreenPilot.Proofs.Tasker.Conduct

/-!
# The ledger of a session

The ledger of a session is its tasker with the phases of those who work on it.
Each move of a session is one of a few steps of its ledger
(`Session.Conforms.step`), so what these steps preserve holds in every session
(`Ledger.Sound`): tasks and jobs belong together, and markers have been put into
the queue by the calls whose markers they are.

A step does one of a few things to the tasker (`Ledger.Sound.change`). Two of them
are told apart by who does them: a marker is dropped by another call that stops
(`Ledger.Sound.drops`), and posts pass again by the worker (`Ledger.Step.lowers`).
-/

set_option autoImplicit false

namespace ScreenPilot

open Activity

/-! ## Statuses -/

namespace JobStatus

theorem isDone_task (status : JobStatus) : status.task.isDone = status.isDone := by
  cases status <;> rfl

theorem task_eq_pending {status : JobStatus} : status.task = .pending ↔ status = .pending := by
  cases status <;> decide

theorem task_eq_running {status : JobStatus} : status.task = .running ↔ status = .running := by
  cases status <;> decide

theorem task_eq_stopped {status : JobStatus} : status.task = .stopped ↔ status = .cancelled := by
  cases status <;> decide

end JobStatus

/-! ## Taskers -/

/-- The jobs of a tasker are in order, and are those of their tasks. -/
structure Tasker.Kept (tasker : Tasker) : Prop where
  ordered : tasker.runner.Ordered
  carried : ∀ entry ∈ tasker.runner.entries, tasker.jobs[entry.2.task]? = some entry.1
  numbered : ∀ (task : TaskId) (id : JobId), tasker.jobs[task]? = some id →
    task.number ≤ tasker.engine.ids.task ∧ id.number ≤ tasker.runner.lastId

namespace Tasker

variable {tasker before after : Tasker} {job : TaskJob} {task : TaskId} {id : JobId}

theorem kept_new (settings : TaskerSettings) (defaults : NodeDefaults) :
    (new settings defaults).Kept where
  ordered := Runner.ordered_new
  carried := nofun
  numbered := by simp [new]

theorem status_of_job (carried : tasker.jobs[task]? = some id) :
    tasker.status task = (tasker.runner.status id).task := by
  unfold status
  rw [carried]

/-- A task that has a status has a job that was given a number. -/
theorem job_of_status (kept : tasker.Kept) (accepted : tasker.status task ≠ .invalid) :
    ∃ id, tasker.jobs[task]? = some id ∧ id.number ≤ tasker.runner.lastId := by
  cases carried : tasker.jobs[task]? with
  | none =>
    unfold status at accepted
    rw [carried] at accepted
    exact absurd rfl accepted
  | some id => exact ⟨id, rfl, (kept.numbered task id carried).2⟩

/-- To drop what is queued begins nothing. -/
theorem running_of_clear
    (running : status { tasker with runner := tasker.runner.clear.2 } task = .running) :
    tasker.status task = .running := by
  unfold status at running ⊢
  cases carried : tasker.jobs[task]? with
  | none =>
    rw [carried] at running
    cases running
  | some id =>
    rw [carried] at running
    have begun := JobStatus.task_eq_running.mp running
    exact JobStatus.task_eq_running.mpr (Runner.running_of_clear begun)

/-- The task of the job that has begun is running. -/
theorem Kept.status_of_current (kept : tasker.Kept)
    (current : tasker.runner.current = some (id, job)) : tasker.status job.task = .running := by
  have member := Runner.mem_entries_of_current current
  have running : tasker.runner.status id = .running := by
    rw [kept.ordered.running, current]
    rfl
  rw [status_of_job (kept.carried (id, job) member), running]
  rfl

/-- The task of the job that is to be taken is pending. -/
theorem Kept.status_of_taken (kept : tasker.Kept) (taken : tasker.runner.take.1 = some (id, job)) :
    tasker.status job.task = .pending := by
  have member := Runner.mem_queue_of_taken taken
  have carried := kept.carried (id, job) (List.mem_append_right _ member)
  rw [status_of_job carried, (kept.ordered.pending id).mpr (List.mem_map_of_mem member)]
  rfl

/-- A tasker whose runner only has less to do is still in order. -/
theorem Kept.lessens (kept : before.Kept) (ordered : after.runner.Ordered)
    (jobs : after.jobs = before.jobs)
    (fewer : ∀ entry ∈ after.runner.entries, entry ∈ before.runner.entries)
    (upward : before.Upward after) : after.Kept where
  ordered := ordered
  carried := by
    intro entry member
    rw [jobs]
    exact kept.carried entry (fewer entry member)
  numbered := by
    intro task id carried
    rw [jobs] at carried
    obtain ⟨drawn, given⟩ := kept.numbered task id carried
    exact ⟨UInt64.le_trans drawn upward.task, UInt64.le_trans given upward.job⟩

/-! ### A job more -/

section Enqueues

variable (enqueues : Enqueues job before after) (upward : before.Upward after)

include enqueues

theorem Enqueues.lt_next (upward : before.Upward after) :
    before.runner.lastId < before.runner.lastId + 1 := by
  have job := upward.job
  rw [enqueues.runner] at job
  exact Runner.lt_next job

theorem Enqueues.entries :
    after.runner.entries = before.runner.entries ++ [(before.runner.nextId, job)] := by
  rw [enqueues.runner, Runner.entries_post]

theorem Enqueues.job_self : after.jobs[job.task]? = some before.runner.nextId := by
  rw [enqueues.jobs, Std.ExtTreeMap.getElem?_insert_self]
  rfl

theorem Enqueues.job_of_ne {task : TaskId} (other : task ≠ job.task) :
    after.jobs[task]? = before.jobs[task]? := by
  rw [enqueues.jobs, Std.ExtTreeMap.getElem?_insert, if_neg]
  rw [Std.compare_eq_iff_eq]
  exact other.symm

theorem Enqueues.status_self : after.status job.task = .pending := by
  rw [status_of_job enqueues.job_self, enqueues.runner, Runner.status_post, if_pos rfl]
  rfl

/-- The task of an earlier job keeps it. -/
theorem Enqueues.job_of_some (isNew : before.jobs[job.task]? = none) {task : TaskId} {id : JobId}
    (carried : before.jobs[task]? = some id) : after.jobs[task]? = some id := by
  rw [enqueues.job_of_ne, carried]
  rintro rfl
  rw [isNew] at carried
  cases carried

/-- A job other than the new one stands where it stood. -/
theorem Enqueues.status (id : JobId) (other : before.runner.nextId ≠ id) :
    after.runner.status id = before.runner.status id := by
  rw [enqueues.runner, Runner.status_post, if_neg other]

theorem Kept.enqueue (kept : before.Kept) (upward : before.Upward after)
    (isNew : before.jobs[job.task]? = none)
    (drawn : job.task.number ≤ after.engine.ids.task) : after.Kept where
  ordered := by
    rw [enqueues.runner]
    exact kept.ordered.post (enqueues.lt_next upward) job
  carried := by
    intro entry member
    rw [enqueues.entries, List.mem_append, List.mem_singleton] at member
    rcases member with old | rfl
    · exact enqueues.job_of_some isNew (kept.carried entry old)
    · exact enqueues.job_self
  numbered := by
    intro task id carried
    by_cases isJob : task = job.task
    · rw [isJob, enqueues.job_self] at carried
      cases carried
      rw [isJob, enqueues.runner]
      exact ⟨drawn, UInt64.le_refl _⟩
    · rw [enqueues.job_of_ne isJob] at carried
      obtain ⟨drawn, given⟩ := kept.numbered task id carried
      exact ⟨UInt64.le_trans drawn upward.task, UInt64.le_trans given upward.job⟩

end Enqueues

/-! ### What may become of a tasker -/

/-- One change of a tasker. -/
inductive Change : Tasker → Tasker → Prop where
  | aside {before after : Tasker} (aside : before.Aside after) : Change before after
  | enqueue {job : TaskJob} {before after : Tasker} (enqueues : Enqueues job before after)
      (isNew : before.jobs[job.task]? = none) : Change before after
  | raise (tasker : Tasker) : Change tasker { tasker with stopping := true }
  | clear (tasker : Tasker) : Change tasker { tasker with runner := tasker.runner.clear.2 }
  | draw (tasker : Tasker) : Change tasker tasker.drawTask.2
  | take (tasker : Tasker) : Change tasker { tasker with runner := tasker.runner.take.2 }
  | reach (tasker : Tasker) : Change tasker { tasker with stopping := false }
  | finish (tasker : Tasker) (id : JobId) (outcome : JobOutcome) :
      Change tasker { tasker with runner := tasker.runner.finish id outcome }

/-- A task keeps its job. -/
theorem Change.job_persists (change : before.Change after)
    (carried : before.jobs[task]? = some id) : after.jobs[task]? = some id := by
  cases change with
  | aside aside =>
    rw [aside.jobs]
    exact carried
  | enqueue enqueues isNew => exact enqueues.job_of_some isNew carried
  | raise | clear | draw | take | reach | finish => exact carried

/-- A job that has begun stays one. -/
theorem Change.begun_persists (change : before.Change after) (ordered : before.runner.Ordered)
    (upward : before.Upward after) (begun : before.runner.Begun id) : after.runner.Begun id := by
  cases change with
  | aside aside =>
    rw [aside.runner]
    exact begun
  | enqueue enqueues =>
    rw [enqueues.runner]
    exact begun.post ordered (enqueues.lt_next upward) _
  | clear => exact begun.clear
  | take => exact begun.take
  | finish => exact begun.finish _ _
  | raise | draw | reach => exact begun

/-- A job that rests stays at rest. -/
theorem Change.rests_persists (change : before.Change after) (ordered : before.runner.Ordered)
    (upward : before.Upward after) (rests : before.runner.Rests id) : after.runner.Rests id := by
  cases change with
  | aside aside =>
    rw [aside.runner]
    exact rests
  | enqueue enqueues =>
    rw [enqueues.runner]
    exact rests.post (enqueues.lt_next upward) _
  | clear => exact rests.clear
  | take => exact rests.take ordered
  | finish => exact rests.finish _ _
  | raise | draw | reach => exact rests

/-- A job in the queue stays there, is taken or is dropped. -/
theorem Change.queued (change : before.Change after)
    {entry : JobId × TaskJob} (queued : entry ∈ before.runner.queue) :
    entry ∈ after.runner.queue ∨ after.runner.current = some entry ∨
      after.runner.status entry.1 = .cancelled := by
  cases change with
  | aside aside =>
    rw [aside.runner]
    exact .inl queued
  | enqueue enqueues =>
    rw [enqueues.runner]
    exact .inl (List.mem_append_left _ queued)
  | raise | draw | reach | finish => exact .inl queued
  | clear =>
    refine .inr (.inr ((Runner.status_clear _ _).trans (if_pos ?_)))
    exact List.mem_map_of_mem queued
  | take =>
    show entry ∈ before.runner.take.2.queue ∨ before.runner.take.2.current = some entry ∨ _
    rcases before.runner.take_cases with nothing | ⟨first, rest, isQueue, took⟩
    · rw [nothing]
      exact .inl queued
    · rw [took]
      rw [isQueue] at queued
      rcases List.mem_cons.mp queued with rfl | later
      · exact .inr (.inl rfl)
      · exact .inl later

end Tasker

/-! ## Ledgers -/

/-- A tasker and how far those who work on it have come. -/
structure Ledger where
  tasker : Tasker
  /-- The phase of each call. -/
  stops : Nat → StopPhase
  work : WorkPhase

namespace Ledger

/-- One step of a ledger. -/
inductive Step : Mover → Ledger → Ledger → Prop where
  | aside {mover : Mover} {ledger : Ledger} {tasker : Tasker}
      (aside : ledger.tasker.Aside tasker) : Step mover ledger { ledger with tasker }
  | begin {ledger : Ledger} (index : Nat) (other : ledger.stops index = .other) :
      Step .caller ledger { ledger with stops := Function.update ledger.stops index .called }
  /-- A task is accepted under the next identity. -/
  | accept {ledger : Ledger} {index : Nat} {job : TaskJob} {tasker : Tasker}
      (isTask : job.kind ≠ .marker) (going : ledger.tasker.stopping = false)
      (next : job.task.number = ledger.tasker.engine.ids.task + 1)
      (drawn : tasker.engine.ids.task = ledger.tasker.engine.ids.task + 1)
      (enqueues : Tasker.Enqueues job ledger.tasker tasker) :
      Step (.call index) ledger { ledger with tasker }
  | stop {ledger : Ledger} {index : Nat} {tasker : Tasker} {phase : StopPhase}
      (go : StopPhase.Go (ledger.stops index) ledger.tasker tasker phase) :
      Step (.call index) ledger
        { ledger with tasker, stops := Function.update ledger.stops index phase }
  | work {ledger : Ledger} {tasker : Tasker} {phase : WorkPhase}
      (go : WorkPhase.Go ledger.work ledger.tasker tasker phase) :
      Step .worker ledger { ledger with tasker, work := phase }

/-- Tasks, jobs and markers belong together. -/
structure Sound (ledger : Ledger) : Prop where
  kept : ledger.tasker.Kept
  held : ledger.tasker.runner.current = ledger.work.held
  /-- A marker that is drawn and not yet in the queue is new. -/
  drawn : ∀ index marker, ledger.stops index = .drawn marker →
    ledger.tasker.jobs[marker]? = none ∧ marker.number ≤ ledger.tasker.engine.ids.task
  apart : ∀ first second marker, ledger.stops first = .drawn marker →
    ledger.stops second = .drawn marker → first = second
  /-- The job of a marker is that of a marker. -/
  marked : ∀ index marker, ledger.stops index = .marked marker →
    ∃ id, ledger.tasker.jobs[marker]? = some id ∧
      ∀ entry ∈ ledger.tasker.runner.entries, entry.1 = id → entry.2.kind = .marker
  /-- Markers come from calls that stop. -/
  markers : ∀ entry ∈ ledger.tasker.runner.entries, entry.2.kind = .marker →
    ∃ index, ledger.stops index = .marked entry.2.task

theorem sound_start (settings : TaskerSettings) (defaults : NodeDefaults) :
    Sound ⟨.new settings defaults, fun _ => .other, .free⟩ where
  kept := Tasker.kept_new settings defaults
  held := rfl
  drawn := nofun
  apart := nofun
  marked := nofun
  markers := nofun

variable {ledger : Ledger} {tasker : Tasker}

/-! ### Steps that preserve -/

/-- A runner that only has less to do keeps the ledger sound. -/
theorem Sound.lessens (sound : ledger.Sound) {work : WorkPhase}
    (ordered : tasker.runner.Ordered) (held : tasker.runner.current = work.held)
    (jobs : tasker.jobs = ledger.tasker.jobs)
    (fewer : ∀ entry ∈ tasker.runner.entries, entry ∈ ledger.tasker.runner.entries)
    (upward : ledger.tasker.Upward tasker) : Sound { ledger with tasker, work } where
  kept := sound.kept.lessens ordered jobs fewer upward
  held := held
  drawn := by
    intro index marker drawn
    obtain ⟨isNew, below⟩ := sound.drawn index marker drawn
    exact ⟨jobs ▸ isNew, UInt64.le_trans below upward.task⟩
  apart := sound.apart
  marked := by
    intro index marker marked
    obtain ⟨id, carried, isMarker⟩ := sound.marked index marker marked
    exact ⟨id, jobs ▸ carried, fun entry member => isMarker entry (fewer entry member)⟩
  markers := fun entry member => sound.markers entry (fewer entry member)

/-- A step that leaves the runner and the jobs alone keeps the ledger sound. -/
theorem Sound.same (sound : ledger.Sound) (runner : tasker.runner = ledger.tasker.runner)
    (jobs : tasker.jobs = ledger.tasker.jobs) (upward : ledger.tasker.Upward tasker) :
    Sound { ledger with tasker } := by
  refine sound.lessens ?_ ?_ jobs ?_ upward
  · rw [runner]
    exact sound.kept.ordered
  · rw [runner]
    exact sound.held
  · rw [runner]
    intro _ member
    exact member

/-- A call goes on, maybe with a marker that is new. -/
theorem Sound.advance (sound : ledger.Sound) (index : Nat) (phase : StopPhase)
    (before : ∀ marker, ledger.stops index ≠ .marked marker)
    (drawnNew : ∀ marker, phase = .drawn marker → ledger.tasker.jobs[marker]? = none ∧
      marker.number ≤ ledger.tasker.engine.ids.task ∧ ∀ other, ledger.stops other ≠ .drawn marker)
    (markedNot : ∀ marker, phase ≠ .marked marker) :
    Sound { ledger with stops := Function.update ledger.stops index phase } := by
  have cases : ∀ {other : Nat} {final : StopPhase},
      Function.update ledger.stops index phase other = final →
        other = index ∧ phase = final ∨ other ≠ index ∧ ledger.stops other = final := by
    intro other final same
    by_cases isIndex : other = index
    · rw [isIndex, Function.update_self] at same
      exact .inl ⟨isIndex, same⟩
    · rw [Function.update_of_ne isIndex] at same
      exact .inr ⟨isIndex, same⟩
  have old : ∀ {other : Nat} {marker : TaskId},
      Function.update ledger.stops index phase other = .marked marker →
        ledger.stops other = .marked marker := by
    intro other marker marked
    rcases cases marked with ⟨-, now⟩ | ⟨-, marked⟩
    · exact absurd now (markedNot marker)
    · exact marked
  constructor
  · exact sound.kept
  · exact sound.held
  · intro other marker drawn
    rcases cases drawn with ⟨-, now⟩ | ⟨-, drawn⟩
    · exact ⟨(drawnNew marker now).1, (drawnNew marker now).2.1⟩
    · exact sound.drawn other marker drawn
  · intro first second marker drawn drawn'
    rcases cases drawn with ⟨isFirst, now⟩ | ⟨-, drawn⟩
    · rcases cases drawn' with ⟨isSecond, -⟩ | ⟨-, drawn'⟩
      · rw [isFirst, isSecond]
      · exact absurd drawn' ((drawnNew marker now).2.2 second)
    · rcases cases drawn' with ⟨-, now⟩ | ⟨-, drawn'⟩
      · exact absurd drawn ((drawnNew marker now).2.2 first)
      · exact sound.apart first second marker drawn drawn'
  · intro other marker marked
    exact sound.marked other marker (old marked)
  · intro entry member isMarker
    obtain ⟨other, marked⟩ := sound.markers entry member isMarker
    refine ⟨other, ?_⟩
    have notIndex : other ≠ index := by
      rintro rfl
      exact before _ marked
    simp only [Function.update_of_ne notIndex]
    exact marked

/-- A task whose identity has not been given out has no job. -/
theorem Sound.unseen (sound : ledger.Sound) {task : TaskId}
    (above : ledger.tasker.engine.ids.task < task.number) : ledger.tasker.jobs[task]? = none := by
  rw [Option.eq_none_iff_forall_ne_some]
  intro id carried
  exact UInt64.not_le.mpr above (sound.kept.numbered task id carried).1

/-- A marker is drawn. -/
theorem Sound.draw (sound : ledger.Sound) {index : Nat} (cleared : ledger.stops index = .cleared)
    (upward : ledger.tasker.Upward ledger.tasker.drawTask.2) :
    Sound { ledger with
      tasker := ledger.tasker.drawTask.2
      stops := Function.update ledger.stops index (.drawn ledger.tasker.drawTask.1) } := by
  have above : ledger.tasker.engine.ids.task < ledger.tasker.drawTask.1.number :=
    Runner.lt_next upward.task
  have drawn : Sound { ledger with tasker := ledger.tasker.drawTask.2 } :=
    sound.same rfl rfl upward
  refine drawn.advance index (.drawn ledger.tasker.drawTask.1) ?_ ?_ nofun
  · intro marker marked
    rw [cleared] at marked
    cases marked
  · rintro marker ⟨⟩
    exact ⟨sound.unseen above, UInt64.le_refl _,
      fun other drawn => UInt64.not_le.mpr above (sound.drawn other _ drawn).2⟩

/-- A job more keeps the ledger sound, if its task is new, and if it is that of a
marker exactly when a call has marked it. -/
theorem Sound.enqueue (sound : ledger.Sound) {job : TaskJob} (stops : Nat → StopPhase)
    (enqueues : Tasker.Enqueues job ledger.tasker tasker) (upward : ledger.tasker.Upward tasker)
    (isNew : ledger.tasker.jobs[job.task]? = none)
    (below : job.task.number ≤ tasker.engine.ids.task)
    (drawn : ∀ index marker, stops index = .drawn marker →
      ledger.stops index = .drawn marker ∧ marker ≠ job.task)
    (marked : ∀ index marker, stops index = .marked marker →
      ledger.stops index = .marked marker ∨ marker = job.task ∧ job.kind = .marker)
    (stays : ∀ index marker, ledger.stops index = .marked marker → stops index = .marked marker)
    (isMarked : job.kind = .marker → ∃ index, stops index = .marked job.task) :
    Sound { ledger with tasker, stops } := by
  have old : ∀ {id : JobId}, id.number ≤ ledger.tasker.runner.lastId →
      ledger.tasker.runner.nextId ≠ id := Runner.nextId_ne (enqueues.lt_next upward)
  have given : ∀ entry ∈ ledger.tasker.runner.entries,
      entry.1.number ≤ ledger.tasker.runner.lastId :=
    fun entry member => sound.kept.ordered.given _ (List.mem_map_of_mem member)
  constructor
  · exact sound.kept.enqueue enqueues upward isNew below
  · show tasker.runner.current = _
    rw [enqueues.runner]
    exact sound.held
  · intro index marker isDrawn
    obtain ⟨isDrawn, other⟩ := drawn index marker isDrawn
    obtain ⟨none, belowBefore⟩ := sound.drawn index marker isDrawn
    exact ⟨(enqueues.job_of_ne other).trans none, UInt64.le_trans belowBefore upward.task⟩
  · intro first second marker isFirst isSecond
    exact sound.apart first second marker (drawn _ _ isFirst).1 (drawn _ _ isSecond).1
  · intro index marker isMarked
    rcases marked index marker isMarked with before | ⟨rfl, isMarker⟩
    · obtain ⟨id, carried, isMarker⟩ := sound.marked index marker before
      refine ⟨id, enqueues.job_of_some isNew carried, fun entry member same => ?_⟩
      rw [enqueues.entries, List.mem_append, List.mem_singleton] at member
      rcases member with member | rfl
      · exact isMarker entry member same
      · exact absurd same (old (sound.kept.numbered _ _ carried).2)
    · refine ⟨_, enqueues.job_self, fun entry member same => ?_⟩
      rw [enqueues.entries, List.mem_append, List.mem_singleton] at member
      rcases member with member | rfl
      · exact absurd same.symm (old (given entry member))
      · exact isMarker
  · intro entry member isMarker
    have member' : entry ∈ tasker.runner.entries := member
    rw [enqueues.entries, List.mem_append, List.mem_singleton] at member'
    rcases member' with member | rfl
    · obtain ⟨index, marked⟩ := sound.markers entry member isMarker
      exact ⟨index, stays index _ marked⟩
    · exact isMarked isMarker

theorem next_task_new {task : TaskId} (next : task.number = ledger.tasker.engine.ids.task + 1)
    (drawn : tasker.engine.ids.task = ledger.tasker.engine.ids.task + 1)
    (upward : ledger.tasker.Upward tasker) : ledger.tasker.engine.ids.task < task.number := by
  have task := upward.task
  rw [drawn] at task
  rw [next]
  exact Runner.lt_next task

/-- A task is accepted. -/
theorem Sound.accept (sound : ledger.Sound) {job : TaskJob} (isTask : job.kind ≠ .marker)
    (next : job.task.number = ledger.tasker.engine.ids.task + 1)
    (drawn : tasker.engine.ids.task = ledger.tasker.engine.ids.task + 1)
    (enqueues : Tasker.Enqueues job ledger.tasker tasker)
    (upward : ledger.tasker.Upward tasker) : Sound { ledger with tasker } := by
  have above := next_task_new next drawn upward
  refine sound.enqueue ledger.stops enqueues upward (sound.unseen above) ?_ ?_ (fun _ _ => .inl)
    (fun _ _ => id) (fun isMarker => absurd isMarker isTask)
  · rw [next, drawn]
    exact UInt64.le_refl _
  · intro index marker isDrawn
    refine ⟨isDrawn, ?_⟩
    rintro rfl
    exact UInt64.not_le.mpr above (sound.drawn index _ isDrawn).2

/-- A marker is put into the queue. -/
theorem Sound.mark (sound : ledger.Sound) {index : Nat} {marker : TaskId}
    (isDrawn : ledger.stops index = .drawn marker)
    (upward : ledger.tasker.Upward (ledger.tasker.enqueueMarker marker)) :
    Sound { ledger with
      tasker := ledger.tasker.enqueueMarker marker
      stops := Function.update ledger.stops index (.marked marker) } := by
  obtain ⟨isNew, below⟩ := sound.drawn index marker isDrawn
  refine sound.enqueue _ (Tasker.enqueueMarker_enqueues _ marker) upward isNew below ?_ ?_ ?_ ?_
  · intro call other' drawn
    have notIndex : call ≠ index := by
      rintro rfl
      rw [Function.update_self] at drawn
      cases drawn
    rw [Function.update_of_ne notIndex] at drawn
    refine ⟨drawn, ?_⟩
    rintro rfl
    exact notIndex (sound.apart _ _ _ drawn isDrawn)
  · intro call other' marked
    by_cases isIndex : call = index
    · rw [isIndex, Function.update_self] at marked
      cases marked
      exact .inr ⟨rfl, rfl⟩
    · rw [Function.update_of_ne isIndex] at marked
      exact .inl marked
  · intro call other' marked
    have notIndex : call ≠ index := by
      rintro rfl
      rw [isDrawn] at marked
      cases marked
    rw [Function.update_of_ne notIndex]
    exact marked
  · intro _
    exact ⟨index, Function.update_self _ _ _⟩

/-- What is queued is dropped. -/
theorem Sound.clear (sound : ledger.Sound) {index : Nat} (raised : ledger.stops index = .raised) :
    Sound { ledger with
      tasker := { ledger.tasker with runner := ledger.tasker.runner.clear.2 }
      stops := Function.update ledger.stops index .cleared } := by
  have advanced := sound.advance index .cleared
    (fun marker marked => by rw [raised] at marked; cases marked) nofun nofun
  exact advanced.lessens sound.kept.ordered.clear sound.held rfl
    (fun _ => Runner.mem_entries_of_clear) ⟨UInt64.le_refl _, UInt64.le_refl _⟩

/-- The worker takes a job. -/
theorem Sound.take (sound : ledger.Sound) (free : ledger.work = .free) {id : JobId}
    {job : TaskJob} (taken : ledger.tasker.runner.take.1 = some (id, job)) :
    Sound { ledger with
      tasker := { ledger.tasker with runner := ledger.tasker.runner.take.2 }
      work := .holding id job } := by
  have idle : ledger.tasker.runner.current = none := by
    rw [sound.held, free]
    rfl
  rcases ledger.tasker.runner.take_cases with same | ⟨first, rest, queued, took⟩
  · rw [same] at taken
    cases taken
  rw [took] at taken
  cases taken
  refine sound.lessens (sound.kept.ordered.take idle) ?_ rfl ?_ ?_
  · show ledger.tasker.runner.take.2.current = _
    rw [took]
    rfl
  · intro entry member
    rw [← Runner.entries_take idle]
    exact member
  · constructor
    · show ledger.tasker.runner.lastId ≤ ledger.tasker.runner.take.2.lastId
      rw [took]
      exact UInt64.le_refl _
    · exact UInt64.le_refl _

/-- The worker lets go of a job that has ended. -/
theorem Sound.finish (sound : ledger.Sound) {id : JobId} {job : TaskJob}
    (holding : ledger.work = .holding id job) (outcome : JobOutcome) :
    Sound { ledger with
      tasker := { ledger.tasker with runner := ledger.tasker.runner.finish id outcome }
      work := .free } := by
  have current : ledger.tasker.runner.current = some (id, job) := by
    rw [sound.held, holding]
    rfl
  refine sound.lessens (sound.kept.ordered.finish current outcome) rfl rfl ?_
    ⟨UInt64.le_refl _, UInt64.le_refl _⟩
  intro entry member
  rw [Runner.entries_finish current outcome]
  exact List.mem_cons_of_mem _ member

/-- **Every step keeps a ledger sound.** -/
theorem Sound.step {mover : Mover} {before after : Ledger} (sound : before.Sound)
    (step : Step mover before after) (upward : before.tasker.Upward after.tasker) :
    after.Sound := by
  cases step with
  | aside aside => exact sound.same aside.runner aside.jobs upward
  | begin index other =>
    refine sound.advance index .called (fun marker marked => ?_) nofun nofun
    rw [other] at marked
    cases marked
  | accept isTask going next drawn enqueues => exact sound.accept isTask next drawn enqueues upward
  | @stop _ index tasker phase go =>
    generalize now : before.stops index = phase' at go
    cases go with
    | aside ongoing aside =>
      rw [← now, Function.update_eq_self]
      exact sound.same aside.runner aside.jobs upward
    | raise =>
      have advanced := sound.advance index .raised
        (fun marker marked => by rw [now] at marked; cases marked) nofun nofun
      exact advanced.same rfl rfl upward
    | clear => exact sound.clear now
    | draw => exact sound.draw now upward
    | mark _ marker => exact sound.mark now upward
  | @work _ tasker phase go =>
    generalize now : before.work = phase' at go
    cases go with
    | aside aside =>
      rw [← now]
      exact sound.same aside.runner aside.jobs upward
    | take taken => exact sound.take now taken
    | reach isMarker =>
      rw [← now]
      exact sound.same rfl rfl upward
    | finish => exact sound.finish now _

/-! ### What a step may change -/

/-- Whatever a step does, this becomes of the tasker. -/
theorem Sound.change {mover : Mover} {before after : Ledger} (sound : before.Sound)
    (step : Step mover before after) (upward : before.tasker.Upward after.tasker) :
    before.tasker.Change after.tasker := by
  cases step with
  | aside aside => exact .aside aside
  | begin => exact .aside (.refl _)
  | accept isTask going next drawn enqueues =>
    exact .enqueue enqueues (sound.unseen (next_task_new next drawn upward))
  | @stop _ index tasker phase go =>
    generalize now : before.stops index = phase' at go
    cases go with
    | aside ongoing aside => exact .aside aside
    | raise => exact .raise _
    | clear => exact .clear _
    | draw => exact .draw _
    | mark _ marker =>
      exact .enqueue (Tasker.enqueueMarker_enqueues _ marker) (sound.drawn index marker now).1
  | @work _ tasker phase go =>
    generalize before.work = held at go
    cases go with
    | aside aside => exact .aside aside
    | take => exact .take _
    | reach => exact .reach _
    | finish => exact .finish _ _ _

/-- A marker that is in the queue after a step was there before, or the step has
put it there. -/
theorem Step.marked_cases {mover : Mover} {before after : Ledger} (step : Step mover before after)
    {index : Nat} {marker : TaskId} (marked : after.stops index = .marked marker) :
    before.stops index = .marked marker ∨
      before.stops index = .drawn marker ∧ after.tasker = before.tasker.enqueueMarker marker := by
  cases step with
  | aside => exact .inl marked
  | begin other =>
    simp only at marked
    by_cases isIndex : index = other
    · rw [isIndex, Function.update_self] at marked
      cases marked
    · rw [Function.update_of_ne isIndex] at marked
      exact .inl marked
  | accept => exact .inl marked
  | @stop _ other tasker phase go =>
    simp only at marked
    by_cases isIndex : index = other
    · rw [isIndex, Function.update_self] at marked
      rw [isIndex]
      generalize before.stops other = phase' at go
      cases go with
      | aside ongoing => exact absurd marked (ongoing marker)
      | mark =>
        cases marked
        exact .inr ⟨rfl, rfl⟩
      | raise => cases marked
      | clear => cases marked
      | draw => cases marked
    · rw [Function.update_of_ne isIndex] at marked
      exact .inl marked
  | work => exact .inl marked

/-- A marker is dropped only out of the queue, by another call that stops. -/
theorem Sound.drops {mover : Mover} {before after : Ledger} (sound : before.Sound)
    (step : Step mover before after) (upward : before.tasker.Upward after.tasker) {index : Nat}
    {marker : TaskId} {id : JobId} (marked : before.stops index = .marked marker)
    (carried : before.tasker.jobs[marker]? = some id)
    (notYet : before.tasker.runner.status id ≠ .cancelled)
    (dropped : after.tasker.runner.status id = .cancelled) :
    ∃ other, mover = .call other ∧ other ≠ index ∧ before.stops other = .raised ∧
      after.tasker = { before.tasker with runner := before.tasker.runner.clear.2 } ∧
      before.tasker.runner.status id = .pending := by
  have same : ∀ {P : Prop}, after.tasker.runner = before.tasker.runner → P := by
    intro P same
    rw [same] at dropped
    exact absurd dropped notYet
  have enqueued : ∀ {P : Prop} {job : TaskJob},
      Tasker.Enqueues job before.tasker after.tasker → P := by
    intro P job enqueues
    have given := (sound.kept.numbered marker id carried).2
    rw [enqueues.status id (Runner.nextId_ne (enqueues.lt_next upward) given)] at dropped
    exact absurd dropped notYet
  cases step with
  | aside aside => exact same aside.runner
  | begin => exact same rfl
  | accept _ _ _ _ enqueues => exact enqueued enqueues
  | @stop _ other tasker phase go =>
    generalize now : before.stops other = phase' at go
    cases go with
    | aside ongoing aside => exact same aside.runner
    | raise => exact same rfl
    | draw => exact same rfl
    | mark _ marker => exact enqueued (Tasker.enqueueMarker_enqueues _ marker)
    | clear =>
      refine ⟨other, rfl, ?_, now, rfl, ?_⟩
      · rintro rfl
        rw [now] at marked
        cases marked
      · have dropped : before.tasker.runner.clear.2.status id = .cancelled := dropped
        rw [Runner.status_clear] at dropped
        split at dropped
        · rename_i queued
          exact (sound.kept.ordered.pending id).mpr queued
        · exact absurd dropped notYet
  | @work _ tasker phase go =>
    have held := sound.held
    generalize before.work = phase' at go held
    cases go with
    | aside aside => exact same aside.runner
    | reach => exact same rfl
    | take taken =>
      have dropped : before.tasker.runner.take.2.status id = .cancelled := dropped
      rcases before.tasker.runner.take_cases with nothing | ⟨first, rest, queued, took⟩
      · rw [nothing] at taken
        cases taken
      · rw [took, Runner.status_taken] at dropped
        split at dropped
        · cases dropped
        · exact absurd dropped notYet
    | @finish _ ended job outcome notCancelled =>
      have dropped : (before.tasker.runner.finish ended outcome).status id = .cancelled := dropped
      rw [Runner.status_finish] at dropped
      split at dropped
      · rename_i isId
        obtain ⟨own, carried', isMarker⟩ := sound.marked index marker marked
        rw [carried] at carried'
        cases carried'
        have kind := isMarker _ (Runner.mem_entries_of_current held) isId
        cases outcome with
        | cancelled => exact absurd rfl (notCancelled kind)
        | succeeded => cases dropped
        | failed => cases dropped
      · exact absurd dropped notYet

/-- A marker that has been returned is dropped by another call that stops, and it was
pending until then. -/
theorem Sound.drops_marker {mover : Mover} {before after : Ledger} (sound : before.Sound)
    (step : Step mover before after) (upward : before.tasker.Upward after.tasker) {index : Nat}
    {marker : TaskId} (marked : after.stops index = .marked marker)
    (notYet : before.tasker.status marker ≠ .stopped)
    (dropped : after.tasker.status marker = .stopped) :
    ∃ other, mover = .call other ∧ other ≠ index ∧ before.stops other = .raised ∧
      after.tasker = { before.tasker with runner := before.tasker.runner.clear.2 } ∧
      before.tasker.status marker = .pending := by
  rcases step.marked_cases marked with marked | ⟨-, enqueued⟩
  · obtain ⟨id, carried, -⟩ := sound.marked index marker marked
    have carried' := (sound.change step upward).job_persists carried
    rw [Tasker.status_of_job carried, Ne, JobStatus.task_eq_stopped] at notYet
    rw [Tasker.status_of_job carried', JobStatus.task_eq_stopped] at dropped
    rw [Tasker.status_of_job carried, JobStatus.task_eq_pending]
    exact sound.drops step upward marked carried notYet dropped
  · rw [enqueued, (Tasker.enqueueMarker_enqueues _ marker).status_self] at dropped
    cases dropped

/-- Posts pass again only when the worker reaches the marker of a stop. -/
theorem Step.lowers {mover : Mover} {before after : Ledger} (step : Step mover before after)
    (stopping : before.tasker.stopping = true) (passing : after.tasker.stopping ≠ true) :
    mover = .worker ∧ ∃ id job, before.work = .holding id job ∧ job.kind = .marker := by
  cases step with
  | aside aside => exact absurd (aside.stopping.trans stopping) passing
  | begin => exact absurd stopping passing
  | accept _ going =>
    rw [stopping] at going
    cases going
  | @stop _ index tasker phase go =>
    generalize before.stops index = phase' at go
    cases go with
    | aside ongoing aside => exact absurd (aside.stopping.trans stopping) passing
    | raise => exact absurd rfl passing
    | clear => exact absurd stopping passing
    | draw => exact absurd stopping passing
    | mark => exact absurd stopping passing
  | @work _ tasker phase go =>
    refine ⟨rfl, ?_⟩
    generalize before.work = held at go
    cases go with
    | aside aside => exact absurd (aside.stopping.trans stopping) passing
    | take => exact absurd stopping passing
    | reach isMarker => exact ⟨_, _, rfl, isMarker⟩
    | finish => exact absurd stopping passing

end Ledger

end ScreenPilot
