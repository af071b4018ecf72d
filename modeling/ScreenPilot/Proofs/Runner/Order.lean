import ScreenPilot.Runner
import Std.Data.ExtTreeMap.Lemmas

/-!
# The order of jobs

A runner begins jobs in the order of their numbers. Of two jobs, the one with
the smaller number is therefore not pending any more when the other one is done;
and if it is still running, then the other one was dropped (`Ordered.fifo`).

`Runner.Ordered` collects what holds of a runner between any two of its
operations, and each operation keeps it.
-/

set_option autoImplicit false

namespace ScreenPilot

namespace Runner

variable {α : Type} {runner : Runner α}

/-- A counter that does not start again goes up. -/
theorem lt_next {counter : UInt64} (upward : counter ≤ counter + 1) : counter < counter + 1 :=
  UInt64.lt_of_le_of_ne upward fun same => by simp at same

/-! ## Where jobs stand -/

/-- The number the next job is given. -/
def nextId (runner : Runner α) : JobId := ⟨runner.lastId + 1⟩

theorem status_post (runner : Runner α) (job : α) (id : JobId) :
    (runner.post job).2.status id =
      if runner.nextId = id then .pending else runner.status id := by
  show (runner.statuses.insert runner.nextId .pending).getD id .unknown = _
  simp only [Std.ExtTreeMap.getD_insert, Std.compare_eq_iff_eq, status]

theorem getD_foldl_cancelled (dropped : List JobId) (statuses : Std.ExtTreeMap JobId JobStatus)
    (id : JobId) :
    (dropped.foldl (fun statuses id => statuses.insert id .cancelled) statuses).getD id .unknown =
      if id ∈ dropped then .cancelled else statuses.getD id .unknown := by
  induction dropped generalizing statuses with
  | nil => simp
  | cons first rest ih =>
    rw [List.foldl_cons, ih, Std.ExtTreeMap.getD_insert]
    simp only [Std.compare_eq_iff_eq, List.mem_cons, eq_comm (a := first)]
    split
    · rename_i later
      rw [if_pos (.inr later)]
    · rename_i notLater
      simp only [notLater, or_false]

theorem status_clear (runner : Runner α) (id : JobId) :
    runner.clear.2.status id =
      if id ∈ runner.queue.map Prod.fst then .cancelled else runner.status id :=
  getD_foldl_cancelled _ _ _

/-- To drop what is queued begins nothing. -/
theorem running_of_clear {id : JobId} (running : runner.clear.2.status id = .running) :
    runner.status id = .running := by
  rw [status_clear] at running
  split at running
  · cases running
  · exact running

theorem status_finish (runner : Runner α) (ended : JobId) (outcome : JobOutcome) (id : JobId) :
    (runner.finish ended outcome).status id =
      if ended = id then .ofOutcome outcome else runner.status id := by
  simp only [status, finish, Std.ExtTreeMap.getD_insert, Std.compare_eq_iff_eq]

/-- What taking a job does, if there is one to take. -/
theorem take_cases (runner : Runner α) :
    runner.take = (none, runner) ∨ ∃ first rest, runner.queue = first :: rest ∧
      runner.take = (some first, { runner with
        queue := rest, current := some first
        statuses := runner.statuses.insert first.1 .running }) := by
  unfold take
  split
  · exact .inl rfl
  · rename_i first rest queued
    split
    · exact .inl rfl
    · exact .inr ⟨first, rest, queued, rfl⟩

/-- A job that is taken has begun. -/
theorem current_take {job : JobId × α} (taken : runner.take.1 = some job) :
    runner.take.2.current = some job := by
  rcases runner.take_cases with nothing | ⟨first, rest, -, took⟩
  · rw [nothing] at taken
    cases taken
  · rw [took] at taken ⊢
    exact taken

/-- A job that is taken was queued. -/
theorem mem_queue_of_taken {job : JobId × α} (taken : runner.take.1 = some job) :
    job ∈ runner.queue := by
  rcases runner.take_cases with nothing | ⟨first, rest, queued, took⟩
  · rw [nothing] at taken
    cases taken
  · rw [took] at taken
    cases taken
    rw [queued]
    exact List.mem_cons_self

theorem status_taken (runner : Runner α) (first : JobId × α) (rest : List (JobId × α))
    (id : JobId) :
    Runner.status { runner with
        queue := rest, current := some first
        statuses := runner.statuses.insert first.1 .running } id =
      if first.1 = id then .running else runner.status id := by
  simp only [status, Std.ExtTreeMap.getD_insert, Std.compare_eq_iff_eq]

/-- Where jobs stand once one is taken. -/
theorem status_take {first : JobId × α} (taken : runner.take.1 = some first) (id : JobId) :
    runner.take.2.status id = if first.1 = id then .running else runner.status id := by
  rcases runner.take_cases with nothing | ⟨other, rest, -, took⟩
  · rw [nothing] at taken
    cases taken
  · rw [took] at taken ⊢
    cases taken
    exact runner.status_taken first rest id

theorem isDone_ofOutcome (outcome : JobOutcome) : (JobStatus.ofOutcome outcome).isDone = true := by
  cases outcome <;> rfl

/-! ## The order -/

/-- Nothing is left to do if no job is in hand and none is queued. -/
theorem isRunning_eq_false :
    runner.isRunning = false ↔ runner.current = none ∧ runner.queue = [] := by
  simp [isRunning]

/-- The jobs that have begun or are to begin, in order. -/
def entries (runner : Runner α) : List (JobId × α) := runner.current.toList ++ runner.queue

/-- Their numbers. -/
def line (runner : Runner α) : List JobId := runner.entries.map Prod.fst

theorem entries_post (runner : Runner α) (job : α) :
    (runner.post job).2.entries = runner.entries ++ [(runner.nextId, job)] := by
  simp only [entries, post, nextId, List.append_assoc]

theorem mem_entries_of_clear {entry : JobId × α} (member : entry ∈ runner.clear.2.entries) :
    entry ∈ runner.entries := by
  simp only [entries, clear, List.append_nil] at member
  exact List.mem_append_left _ member

theorem mem_entries_of_current {job : JobId × α} (current : runner.current = some job) :
    job ∈ runner.entries := by
  rw [entries, current]
  exact List.mem_cons_self

/-- To begin a job leaves the line as it is. -/
theorem entries_take (idle : runner.current = none) : runner.take.2.entries = runner.entries := by
  rcases runner.take_cases with same | ⟨first, rest, queued, taken⟩
  · rw [same]
  · rw [taken, entries, entries, idle, queued]
    rfl

theorem entries_finish {job : JobId × α} (current : runner.current = some job)
    (outcome : JobOutcome) :
    runner.entries = job :: (runner.finish job.1 outcome).entries := by
  rw [entries, entries, current]
  rfl

theorem mem_line {id : JobId} :
    id ∈ runner.line ↔ runner.current.map Prod.fst = some id ∨ id ∈ runner.queue.map Prod.fst := by
  rw [line, entries, List.map_append, List.mem_append]
  cases runner.current with
  | none => simp
  | some job => simp [eq_comm]

/-- A runner works in the order of numbers, and knows where each job stands. -/
structure Ordered (runner : Runner α) : Prop where
  ascending : runner.line.Pairwise fun earlier later => earlier.number < later.number
  given : ∀ id ∈ runner.line, id.number ≤ runner.lastId
  known : ∀ id, runner.status id ≠ .unknown → id.number ≤ runner.lastId
  pending : ∀ id, runner.status id = .pending ↔ id ∈ runner.queue.map Prod.fst
  running : ∀ id, runner.status id = .running ↔ runner.current.map Prod.fst = some id
  /-- No job is pending behind one that is done, or running behind one that was
  not dropped. -/
  fifo : ∀ earlier later, earlier.number < later.number →
    (runner.status later).isDone = true → runner.status earlier ≠ .pending ∧
      (runner.status earlier = .running → runner.status later = .cancelled)

theorem ordered_new : (new : Runner α).Ordered where
  ascending := .nil
  given := nofun
  known := fun id unknown => absurd (by simp [status, new]) unknown
  pending := by simp [status, new]
  running := by simp [status, new]
  fifo := by
    intro earlier later _ done
    simp [status, new, JobStatus.isDone] at done

/-- The next number is new. -/
theorem nextId_ne (upward : runner.lastId < runner.lastId + 1) {id : JobId}
    (given : id.number ≤ runner.lastId) : runner.nextId ≠ id := by
  rintro rfl
  exact UInt64.lt_irrefl _ (UInt64.lt_of_lt_of_le upward given)

namespace Ordered

/-- The job that has begun comes before those that are to begin. -/
theorem current_lt (ordered : runner.Ordered) {id other : JobId}
    (current : runner.current.map Prod.fst = some id)
    (queued : other ∈ runner.queue.map Prod.fst) : id.number < other.number := by
  have ascending := ordered.ascending
  rw [line, entries, List.map_append, List.pairwise_append] at ascending
  refine ascending.2.2 id ?_ other queued
  obtain ⟨job, isCurrent, rfl⟩ := Option.map_eq_some_iff.mp current
  rw [isCurrent]
  exact List.mem_cons_self

theorem ascending_queue (ordered : runner.Ordered) :
    (runner.queue.map Prod.fst).Pairwise fun earlier later => earlier.number < later.number := by
  have ascending := ordered.ascending
  rw [line, entries, List.map_append, List.pairwise_append] at ascending
  exact ascending.2.1

theorem nodup_queue (ordered : runner.Ordered) : (runner.queue.map Prod.fst).Nodup := by
  refine ordered.ascending_queue.imp ?_
  rintro id _ less rfl
  exact UInt64.lt_irrefl _ less

/-- A job that is done comes before each that is pending. -/
theorem lt_of_done (ordered : runner.Ordered) {id other : JobId}
    (done : (runner.status id).isDone = true) (pending : runner.status other = .pending) :
    id.number < other.number := by
  refine Decidable.byContradiction fun notLess => ?_
  rcases UInt64.lt_or_eq_of_le (UInt64.not_lt.mp notLess) with less | same
  · exact (ordered.fifo other id less done).1 pending
  · obtain rfl : other = id := congrArg JobId.mk same
    rw [pending] at done
    cases done

theorem post (ordered : runner.Ordered) (upward : runner.lastId < runner.lastId + 1) (job : α) :
    (runner.post job).2.Ordered := by
  have line_post : (runner.post job).2.line = runner.line ++ [runner.nextId] := by
    rw [line, entries_post, List.map_append]
    rfl
  constructor
  · rw [line_post, List.pairwise_append]
    refine ⟨ordered.ascending, List.pairwise_singleton _ _, ?_⟩
    intro id member last isLast
    rw [List.mem_singleton.mp isLast]
    exact UInt64.lt_of_le_of_lt (ordered.given id member) upward
  · intro id member
    rw [line_post, List.mem_append, List.mem_singleton] at member
    rcases member with before | rfl
    · exact UInt64.le_trans (ordered.given id before) (UInt64.le_of_lt upward)
    · exact UInt64.le_refl _
  · intro id known
    rw [status_post] at known
    split at known
    · rename_i isNext
      rw [← isNext]
      exact UInt64.le_refl _
    · exact UInt64.le_trans (ordered.known id known) (UInt64.le_of_lt upward)
  · intro id
    rw [status_post]
    simp only [Runner.post, List.map_append, List.mem_append, List.map_cons, List.map_nil,
      List.mem_singleton, ← ordered.pending]
    split
    · rename_i isNext
      exact iff_of_true rfl (.inr isNext.symm)
    · rename_i other
      exact ⟨.inl, fun either => either.resolve_right fun same => other same.symm⟩
  · intro id
    rw [status_post]
    split
    · rename_i isNext
      refine iff_of_false nofun fun current => ?_
      exact nextId_ne upward (ordered.given id (mem_line.mpr (.inl current))) isNext
    · exact ordered.running id
  · intro earlier later less done
    rw [status_post] at done
    split at done
    · cases done
    · rename_i other
      have bound := ordered.known later fun unknown => by rw [unknown] at done; cases done
      have notNext := nextId_ne upward (UInt64.le_of_lt (UInt64.lt_of_lt_of_le less bound))
      rw [status_post, if_neg notNext, status_post, if_neg other]
      exact ordered.fifo earlier later less done

theorem clear (ordered : runner.Ordered) : runner.clear.2.Ordered := by
  have sub : runner.clear.2.line.Sublist runner.line := by
    simp only [line, entries, Runner.clear, List.append_nil, List.map_append]
    exact List.sublist_append_left _ _
  constructor
  · exact ordered.ascending.sublist sub
  · intro id member
    exact ordered.given id (sub.subset member)
  · intro id known
    rw [status_clear] at known
    split at known
    · rename_i queued
      exact ordered.given id (mem_line.mpr (.inr queued))
    · exact ordered.known id known
  · intro id
    rw [status_clear]
    refine iff_of_false ?_ nofun
    split
    · exact nofun
    · rename_i notQueued
      intro pending
      exact notQueued ((ordered.pending id).mp pending)
  · intro id
    rw [status_clear]
    split
    · rename_i queued
      refine iff_of_false nofun fun current => ?_
      exact UInt64.lt_irrefl _ (ordered.current_lt current queued)
    · exact ordered.running id
  · intro earlier later less done
    rw [status_clear] at done ⊢
    split
    · exact ⟨nofun, nofun⟩
    · rename_i notQueued
      refine ⟨fun pending => notQueued ((ordered.pending earlier).mp pending), fun running => ?_⟩
      rw [status_clear]
      split at done
      · rw [if_pos ‹_›]
      · rw [if_neg ‹_›]
        exact (ordered.fifo earlier later less done).2 running

theorem take (ordered : runner.Ordered) (idle : runner.current = none) :
    runner.take.2.Ordered := by
  rcases runner.take_cases with same | ⟨first, rest, queued, taken⟩
  · rw [same]
    exact ordered
  rw [taken]
  have line_take : runner.line = first.1 :: rest.map Prod.fst := by
    rw [line, entries, idle, queued]
    rfl
  have ascending := ordered.ascending
  have given := ordered.given
  rw [line_take] at ascending given
  have behind := (List.pairwise_cons.mp ascending).1
  have status_take := runner.status_taken first rest
  have firstPending : runner.status first.1 = .pending := by
    rw [ordered.pending, queued]
    exact List.mem_cons_self
  constructor
  · exact ascending
  · exact given
  · intro id known
    rw [status_take] at known
    split at known
    · rename_i isFirst
      rw [← isFirst]
      exact ordered.known _ fun unknown => by rw [unknown] at firstPending; cases firstPending
    · exact ordered.known id known
  · intro id
    rw [status_take]
    split
    · rename_i isFirst
      refine iff_of_false nofun fun later => ?_
      rw [← isFirst] at later
      exact UInt64.lt_irrefl _ (behind _ later)
    · rename_i notFirst
      rw [ordered.pending, queued, List.map_cons, List.mem_cons]
      exact ⟨fun either => either.resolve_left fun same => notFirst same.symm, .inr⟩
  · intro id
    rw [status_take]
    split
    · rename_i isFirst
      exact iff_of_true rfl (congrArg some isFirst)
    · rename_i notFirst
      rw [ordered.running, idle]
      exact iff_of_false nofun fun same => notFirst (Option.some.inj same)
  · intro earlier later less done
    rw [status_take] at done
    split at done
    · cases done
    · rename_i notFirst
      have old := ordered.fifo earlier later less done
      have earlierNotFirst : first.1 ≠ earlier := by
        rintro rfl
        exact old.1 firstPending
      rw [status_take, if_neg earlierNotFirst, status_take, if_neg notFirst]
      exact old

theorem finish (ordered : runner.Ordered) {job : JobId × α} (current : runner.current = some job)
    (outcome : JobOutcome) : (runner.finish job.1 outcome).Ordered := by
  have isCurrent : runner.current.map Prod.fst = some job.1 := by rw [current]; rfl
  have line_finish : runner.line = job.1 :: (runner.finish job.1 outcome).line := by
    rw [line, entries_finish current outcome]
    rfl
  have ended : ∀ {status : JobStatus}, status.isDone = false → .ofOutcome outcome ≠ status := by
    rintro _ notDone rfl
    rw [isDone_ofOutcome] at notDone
    cases notDone
  have ascending := ordered.ascending
  rw [line_finish, List.pairwise_cons] at ascending
  constructor
  · exact ascending.2
  · intro id member
    exact ordered.given id (line_finish ▸ List.mem_cons_of_mem _ member)
  · intro id known
    rw [status_finish] at known
    split at known
    · rename_i isJob
      rw [← isJob]
      exact ordered.given _ (mem_line.mpr (.inl isCurrent))
    · exact ordered.known id known
  · intro id
    rw [status_finish]
    split
    · rename_i isJob
      refine iff_of_false (ended rfl) fun queued => ?_
      rw [← isJob] at queued
      exact UInt64.lt_irrefl _ (ordered.current_lt isCurrent queued)
    · exact ordered.pending id
  · intro id
    rw [status_finish]
    split
    · exact iff_of_false (ended rfl) nofun
    · rename_i notJob
      rw [ordered.running, isCurrent]
      exact iff_of_false (fun same => notJob (Option.some.inj same)) nofun
  · intro earlier later less done
    rw [status_finish]
    split
    · exact ⟨ended rfl, fun running => absurd running (ended rfl)⟩
    · rename_i notJob
      have notRunning : runner.status earlier ≠ .running := by
        rw [Ne, ordered.running, isCurrent]
        intro same
        exact notJob (Option.some.inj same)
      refine ⟨fun pending => ?_, fun running => absurd running notRunning⟩
      rw [status_finish] at done
      split at done
      · rename_i isJob
        have behind := ordered.current_lt isCurrent ((ordered.pending earlier).mp pending)
        rw [isJob] at behind
        exact UInt64.lt_asymm less behind
      · exact (ordered.fifo earlier later less done).1 pending

end Ordered

/-! ## Jobs that are done -/

section Done

variable {id : JobId} (ordered : runner.Ordered) (done : (runner.status id).isDone = true)

include ordered done

/-- A job that is done stands where it stood when another one is posted, -/
theorem status_post_of_done (upward : runner.lastId < runner.lastId + 1) (job : α) :
    (runner.post job).2.status id = runner.status id := by
  have given := ordered.known id fun unknown => by rw [unknown] at done; cases done
  rw [status_post, if_neg (nextId_ne upward given)]

/-- when the queue is dropped, -/
theorem status_clear_of_done : runner.clear.2.status id = runner.status id := by
  rw [status_clear, if_neg]
  intro queued
  rw [(ordered.pending id).mpr queued] at done
  cases done

/-- when another one is begun, -/
theorem status_take_of_done : runner.take.2.status id = runner.status id := by
  rcases runner.take_cases with same | ⟨first, rest, queued, taken⟩
  · rw [same]
  · rw [taken, status_taken, if_neg]
    rintro rfl
    have pending := (ordered.pending first.1).mpr (by rw [queued]; exact List.mem_cons_self)
    rw [pending] at done
    cases done

/-- and when the current one ends. -/
theorem status_finish_of_done {ended : JobId}
    (current : runner.current.map Prod.fst = some ended) (outcome : JobOutcome) :
    (runner.finish ended outcome).status id = runner.status id := by
  rw [status_finish, if_neg]
  rintro rfl
  rw [(ordered.running ended).mpr current] at done
  cases done

end Done

/-! ## Jobs that have begun -/

/-- The job has begun; it may have ended. -/
def Begun (runner : Runner α) (id : JobId) : Prop :=
  runner.status id ≠ .unknown ∧ runner.status id ≠ .pending

theorem begun_of_running {id : JobId} (running : runner.status id = .running) :
    runner.Begun id := by
  rw [Begun, running]
  exact ⟨by decide, by decide⟩

theorem Begun.running {id : JobId} (begun : runner.Begun id)
    (notDone : (runner.status id).isDone = false) : runner.status id = .running := by
  obtain ⟨notUnknown, notPending⟩ := begun
  generalize runner.status id = status at *
  cases status with
  | unknown => exact absurd rfl notUnknown
  | pending => exact absurd rfl notPending
  | running => rfl
  | succeeded | failed | cancelled => cases notDone

theorem Begun.post {id : JobId} (begun : runner.Begun id) (ordered : runner.Ordered)
    (upward : runner.lastId < runner.lastId + 1) (job : α) : (runner.post job).2.Begun id := by
  rw [Begun, status_post, if_neg (nextId_ne upward (ordered.known id begun.1))]
  exact begun

theorem Begun.clear {id : JobId} (begun : runner.Begun id) : runner.clear.2.Begun id := by
  rw [Begun, status_clear]
  split
  · exact ⟨nofun, nofun⟩
  · exact begun

theorem Begun.take {id : JobId} (begun : runner.Begun id) : runner.take.2.Begun id := by
  rcases runner.take_cases with same | ⟨first, rest, -, taken⟩
  · rw [same]
    exact begun
  · rw [Begun, taken, status_taken]
    split
    · exact ⟨nofun, nofun⟩
    · exact begun

theorem Begun.finish {id : JobId} (begun : runner.Begun id) (ended : JobId)
    (outcome : JobOutcome) : (runner.finish ended outcome).Begun id := by
  rw [Begun, status_finish]
  split
  · cases outcome <;> exact ⟨nofun, nofun⟩
  · exact begun

/-! ## Jobs that rest -/

/-- Nothing is to be done for the job any more. -/
structure Rests (runner : Runner α) (id : JobId) : Prop where
  given : id.number ≤ runner.lastId
  notPending : runner.status id ≠ .pending
  notRunning : runner.status id ≠ .running

namespace Rests

variable {id : JobId}

theorem post (rests : runner.Rests id) (upward : runner.lastId < runner.lastId + 1) (job : α) :
    (runner.post job).2.Rests id := by
  have same : (runner.post job).2.status id = runner.status id := by
    rw [status_post, if_neg (nextId_ne upward rests.given)]
  refine ⟨UInt64.le_trans rests.given (UInt64.le_of_lt upward), ?_, ?_⟩
  · rw [same]
    exact rests.notPending
  · rw [same]
    exact rests.notRunning

theorem clear (rests : runner.Rests id) : runner.clear.2.Rests id := by
  refine ⟨rests.given, ?_, ?_⟩
  · rw [status_clear]
    split
    · exact nofun
    · exact rests.notPending
  · rw [status_clear]
    split
    · exact nofun
    · exact rests.notRunning

theorem take (rests : runner.Rests id) (ordered : runner.Ordered) : runner.take.2.Rests id := by
  rcases runner.take_cases with same | ⟨first, rest, queued, taken⟩
  · rw [same]
    exact rests
  · have notFirst : first.1 ≠ id := by
      rintro rfl
      refine rests.notPending ((ordered.pending first.1).mpr ?_)
      rw [queued]
      exact List.mem_cons_self
    rw [taken]
    refine ⟨rests.given, ?_, ?_⟩
    · rw [status_taken, if_neg notFirst]
      exact rests.notPending
    · rw [status_taken, if_neg notFirst]
      exact rests.notRunning

theorem finish (rests : runner.Rests id) (ended : JobId) (outcome : JobOutcome) :
    (runner.finish ended outcome).Rests id := by
  refine ⟨rests.given, ?_, ?_⟩
  · rw [status_finish]
    split
    · cases outcome <;> exact nofun
    · exact rests.notPending
  · rw [status_finish]
    split
    · cases outcome <;> exact nofun
    · exact rests.notRunning

end Rests

end Runner

end ScreenPilot
