import Mathlib.Data.List.Induction
import ScreenPilot.Proofs.Runner.Order

/-!
# Shifts

A shift is a runner with its worker. Those who use the runner post jobs, look at
them, drop what is queued, and close the runner in the end. The worker takes the
next job when its hands are empty, and reports how the job ended. All these are
moves, each of which happens at once; so a list of moves is what any number of
users and the worker have done, in the order in which it happened.

The queue, the job that has begun and the table of statuses are kept apart, and
each move changes several of them. They agree after any moves (`run_agrees`), and
what the table says of a job that is done stays.

Numbers are not given twice: a shift is considered as long as fewer jobs are posted
than there are numbers.
-/

set_option autoImplicit false

namespace ScreenPilot

/-! ## Moves -/

/-- One move at a runner, of someone who uses it or of its worker. -/
inductive Runner.Move (α : Type) where
  | post (job : α)
  /-- Asks where a job stands, waits for it, visits the jobs, or asks whether there
  are any. -/
  | look
  | clear
  | close
  | take
  /-- The job in hand came to an outcome, or crashed. -/
  | finish (reply : Reply JobOutcome)

/-- What has happened at a runner. -/
inductive Runner.Event (α : Type) where
  | posted (id : JobId) (job : α)
  | begun (id : JobId) (job : α)
  | ended (id : JobId) (reply : Reply JobOutcome)
  /-- These jobs were dropped at once. -/
  | dropped (ids : List JobId)

/-- A runner with its worker. -/
structure Shift (α : Type) where
  runner : Runner α
  /-- The job that the worker carries out. -/
  hand : Option (JobId × α)
  /-- What has happened, in order. -/
  log : List (Runner.Event α)

namespace Shift

variable {α : Type}

/-- Nobody has moved yet. -/
def start : Shift α := ⟨.new, none, []⟩

/-- The shift after a move. The worker takes a job only with empty hands, and has an
end to report only of the job in hand; another move of it changes nothing. -/
def move (shift : Shift α) : Runner.Move α → Shift α
  | .post job =>
    let (id, runner) := shift.runner.post job
    { shift with runner, log := shift.log ++ [.posted id job] }
  | .look => shift
  | .clear =>
    let (ids, runner) := shift.runner.clear
    { shift with runner, log := shift.log ++ [.dropped ids] }
  | .close =>
    { shift with
      runner := shift.runner.close
      log := shift.log ++ [.dropped shift.runner.clear.1] }
  | .take =>
    match shift.hand, shift.runner.take with
    | none, (some (id, job), runner) =>
      { runner, hand := some (id, job), log := shift.log ++ [.begun id job] }
    | _, _ => shift
  | .finish reply =>
    match shift.hand with
    | none => shift
    | some (id, _) =>
      { runner := shift.runner.finish id (.ofReply reply), hand := none,
        log := shift.log ++ [.ended id reply] }

/-- The shift after some moves. -/
def run (moves : List (Runner.Move α)) : Shift α := moves.foldl move start

/-- The move posts a job. -/
def isPost : Runner.Move α → Bool
  | .post _ => true
  | .look | .clear | .close | .take | .finish _ => false

/-- How many jobs are posted. -/
def posts (moves : List (Runner.Move α)) : Nat := moves.countP isPost

theorem run_concat (moves : List (Runner.Move α)) (last : Runner.Move α) :
    run (moves ++ [last]) = (run moves).move last := by
  rw [run, List.foldl_append]
  rfl

theorem posts_concat (moves : List (Runner.Move α)) (last : Runner.Move α) :
    posts (moves ++ [last]) = posts moves + (isPost last).toNat := by
  rw [posts, List.countP_append, List.countP_singleton]
  cases last <;> rfl

theorem posts_le_append (moves more : List (Runner.Move α)) :
    posts moves ≤ posts (moves ++ more) := by
  rw [posts, posts, List.countP_append]
  exact Nat.le_add_right _ _

/-- What a move of the worker that takes a job does, if it does anything. -/
theorem move_take_cases (shift : Shift α) :
    shift.move .take = shift ∨ ∃ id job, shift.hand = none ∧
      shift.runner.queue = (id, job) :: shift.runner.take.2.queue ∧
      shift.runner.take.1 = some (id, job) ∧
      shift.move .take =
        ⟨shift.runner.take.2, some (id, job), shift.log ++ [.begun id job]⟩ := by
  rcases shift.runner.take_cases with nothing | ⟨first, rest, queued, took⟩
  · refine .inl ?_
    rw [move, nothing]
    cases shift.hand <;> rfl
  · cases held : shift.hand with
    | some entry =>
      refine .inl ?_
      rw [move, held]
    | none =>
      refine .inr ⟨first.1, first.2, rfl, by rw [took, queued], by rw [took], ?_⟩
      rw [move, held, took]

/-- What a report of the worker does with a job in hand, -/
theorem move_finish {shift : Shift α} {id : JobId} {job : α} (holding : shift.hand = some (id, job))
    (reply : Reply JobOutcome) : shift.move (.finish reply) =
      ⟨shift.runner.finish id (.ofReply reply), none, shift.log ++ [.ended id reply]⟩ := by
  rw [move, holding]

/-- and what it does at all. -/
theorem move_finish_cases (shift : Shift α) (reply : Reply JobOutcome) :
    shift.hand = none ∧ shift.move (.finish reply) = shift ∨
      ∃ id job, shift.hand = some (id, job) ∧ shift.move (.finish reply) =
        ⟨shift.runner.finish id (.ofReply reply), none, shift.log ++ [.ended id reply]⟩ := by
  cases held : shift.hand with
  | none => exact .inl ⟨rfl, by rw [move, held]⟩
  | some entry => exact .inr ⟨entry.1, entry.2, rfl, move_finish held reply⟩

end Shift

/-! ## Numbers of the table -/

namespace Runner

variable {α : Type} {runner : Runner α}

/-- The table knows exactly the numbers that were given. -/
structure Numbered (runner : Runner α) : Prop where
  listed : ∀ id, id ∈ runner.statuses ↔ 1 ≤ id.number ∧ id.number ≤ runner.lastId
  known : ∀ id, id ∈ runner.statuses ↔ runner.status id ≠ .unknown

theorem numbered_new : (new : Runner α).Numbered where
  listed := by
    intro id
    refine iff_of_false Std.ExtTreeMap.not_mem_empty ?_
    rintro ⟨above, below⟩
    have none : (1 : UInt64) ≤ 0 := UInt64.le_trans above below
    exact absurd none (by decide)
  known := by simp [new, status]

/-- A number is one that was given before, or the next one. -/
theorem le_next {counter number : UInt64} (upward : counter < counter + 1) :
    number ≤ counter + 1 ↔ number ≤ counter ∨ number = counter + 1 := by
  rw [UInt64.lt_iff_toNat_lt, UInt64.toNat_add] at upward
  simp only [UInt64.le_iff_toNat_le, ← UInt64.toNat_inj, UInt64.toNat_add]
  have bound := counter.toNat_lt
  simp only [UInt64.reduceToNat] at upward ⊢
  omega

namespace Numbered

/-- A runner whose table has the same numbers, each with a status, is numbered as
well. -/
theorem keep (numbered : runner.Numbered) {after : Runner α}
    (lastId : after.lastId = runner.lastId)
    (same : ∀ id, id ∈ after.statuses ↔ id ∈ runner.statuses)
    (status : ∀ id, after.status id = .unknown ↔ runner.status id = .unknown) :
    after.Numbered where
  listed := by
    intro id
    rw [same, numbered.listed, lastId]
  known := by
    intro id
    rw [same, numbered.known, Ne, Ne, status]

theorem post (numbered : runner.Numbered) (upward : runner.lastId < runner.lastId + 1) (job : α) :
    (runner.post job).2.Numbered where
  listed := by
    intro id
    have first : 1 ≤ runner.lastId + 1 := by
      rw [UInt64.lt_iff_toNat_lt] at upward
      rw [UInt64.le_iff_toNat_le]
      exact Nat.lt_of_le_of_lt (Nat.zero_le _) upward
    show id ∈ runner.statuses.insert runner.nextId .pending ↔
      1 ≤ id.number ∧ id.number ≤ runner.lastId + 1
    rw [Std.ExtTreeMap.mem_insert, Std.compare_eq_iff_eq, numbered.listed, le_next upward]
    constructor
    · rintro (rfl | ⟨above, below⟩)
      · exact ⟨first, .inr rfl⟩
      · exact ⟨above, .inl below⟩
    · rintro ⟨above, below | isNext⟩
      · exact .inr ⟨above, below⟩
      · exact .inl (congrArg JobId.mk isNext.symm)
  known := by
    intro id
    rw [status_post]
    show id ∈ runner.statuses.insert runner.nextId .pending ↔ _
    rw [Std.ExtTreeMap.mem_insert, Std.compare_eq_iff_eq, numbered.known]
    split
    · rename_i isNext
      exact iff_of_true (.inl isNext) nofun
    · rename_i notNext
      exact or_iff_right notNext

end Numbered

theorem mem_foldl_cancelled (dropped : List JobId) (statuses : Std.ExtTreeMap JobId JobStatus)
    (id : JobId) :
    id ∈ dropped.foldl (fun statuses id => statuses.insert id .cancelled) statuses ↔
      id ∈ dropped ∨ id ∈ statuses := by
  induction dropped generalizing statuses with
  | nil => simp
  | cons first rest ih =>
    rw [List.foldl_cons, ih, Std.ExtTreeMap.mem_insert, Std.compare_eq_iff_eq, List.mem_cons,
      eq_comm (a := first), or_left_comm, or_assoc]

namespace Numbered

theorem clear (numbered : runner.Numbered) (ordered : runner.Ordered) :
    runner.clear.2.Numbered := by
  have queued : ∀ id ∈ runner.queue.map Prod.fst, runner.status id ≠ .unknown := by
    intro id member
    rw [(ordered.pending id).mpr member]
    exact nofun
  refine numbered.keep rfl (fun id => ?_) fun id => ?_
  · refine (mem_foldl_cancelled _ _ id).trans (or_iff_right_of_imp fun member => ?_)
    exact (numbered.known id).mpr (queued id member)
  · rw [status_clear]
    split
    · rename_i member
      exact iff_of_false nofun (queued id member)
    · exact Iff.rfl

theorem take (numbered : runner.Numbered) (ordered : runner.Ordered) :
    runner.take.2.Numbered := by
  rcases runner.take_cases with same | ⟨first, rest, queued, took⟩
  · rw [same]
    exact numbered
  have pending : runner.status first.1 = .pending := by
    rw [ordered.pending, queued]
    exact List.mem_cons_self
  have known : runner.status first.1 ≠ .unknown := by
    rw [pending]
    exact nofun
  rw [took]
  refine numbered.keep rfl (fun id => ?_) fun id => ?_
  · rw [Std.ExtTreeMap.mem_insert, Std.compare_eq_iff_eq]
    refine or_iff_right_of_imp ?_
    rintro rfl
    exact (numbered.known _).mpr known
  · rw [status_taken]
    split
    · rename_i isFirst
      exact iff_of_false nofun (isFirst ▸ known)
    · exact Iff.rfl

theorem finish (numbered : runner.Numbered) (ordered : runner.Ordered) {id : JobId}
    (current : runner.current.map Prod.fst = some id) (outcome : JobOutcome) :
    (runner.finish id outcome).Numbered := by
  have known : runner.status id ≠ .unknown := by
    rw [(ordered.running id).mpr current]
    exact nofun
  refine numbered.keep rfl (fun other => ?_) fun other => ?_
  · show other ∈ runner.statuses.insert id (.ofOutcome outcome) ↔ _
    rw [Std.ExtTreeMap.mem_insert, Std.compare_eq_iff_eq]
    refine or_iff_right_of_imp ?_
    rintro rfl
    exact (numbered.known _).mpr known
  · rw [status_finish]
    split
    · rename_i isId
      refine iff_of_false ?_ (isId ▸ known)
      cases outcome <;> exact nofun
    · exact Iff.rfl

end Numbered

/-- To close a runner changes no more than to drop what is queued. -/
theorem Ordered.close (ordered : runner.Ordered) : runner.close.Ordered :=
  ⟨ordered.clear.ascending, ordered.clear.given, ordered.clear.known, ordered.clear.pending,
    ordered.clear.running, ordered.clear.fifo⟩

theorem Numbered.close (numbered : runner.Numbered) (ordered : runner.Ordered) :
    runner.close.Numbered :=
  ⟨(numbered.clear ordered).listed, (numbered.clear ordered).known⟩

/-! ## What agrees -/

/-- The parts of a runner agree with each other. -/
structure Agreeing (runner : Runner α) : Prop where
  /-- The table has the numbers that were given, and no other. -/
  listed : ∀ id, id ∈ runner.statuses ↔ 1 ≤ id.number ∧ id.number ≤ runner.lastId
  known : ∀ id, id ∈ runner.statuses ↔ runner.status id ≠ .unknown
  pending : ∀ id, runner.status id = .pending ↔ id ∈ runner.queue.map Prod.fst
  running : ∀ id, runner.status id = .running ↔ runner.current.map Prod.fst = some id
  ascending : (runner.queue.map Prod.fst).Pairwise fun earlier later =>
    earlier.number < later.number
  behind : ∀ current ∈ runner.current, ∀ queued ∈ runner.queue,
    current.1.number < queued.1.number
  single : ∀ first second, runner.status first = .running → runner.status second = .running →
    first = second
  isRunning : runner.isRunning = true ↔
    ∃ id, runner.status id = .pending ∨ runner.status id = .running
  /-- A visit is paid to each job that was posted and is not done, -/
  visited : ∀ id, id ∈ runner.jobs.map Prod.fst ↔
    runner.status id ≠ .unknown ∧ (runner.status id).isDone = false
  /-- in the order of numbers, -/
  inOrder : (runner.jobs.map Prod.fst).Pairwise fun earlier later =>
    earlier.number < later.number
  /-- with the status that the table has. -/
  truthful : ∀ id job status, (id, job, status) ∈ runner.jobs → status = runner.status id

/-- The jobs that are visited are those in line. -/
theorem map_fst_jobs (runner : Runner α) : runner.jobs.map Prod.fst = runner.line := by
  simp only [jobs, line, entries, List.map_append, List.map_map]
  rfl

/-- Nobody is in line if no job has begun and none is queued. -/
theorem line_eq_nil : runner.line = [] ↔ runner.current = none ∧ runner.queue = [] := by
  rw [line, entries, List.map_eq_nil_iff, List.append_eq_nil_iff, Option.toList_eq_nil_iff]

/-- A job is in line if it is pending or running. -/
theorem Ordered.mem_line (ordered : runner.Ordered) {id : JobId} :
    id ∈ runner.line ↔ runner.status id = .pending ∨ runner.status id = .running := by
  rw [Runner.mem_line, ordered.pending, ordered.running, or_comm]

theorem Ordered.agreeing (ordered : runner.Ordered) (numbered : runner.Numbered) :
    runner.Agreeing where
  listed := numbered.listed
  known := numbered.known
  pending := ordered.pending
  running := ordered.running
  ascending := ordered.ascending_queue
  behind := by
    intro current isCurrent queued member
    refine ordered.current_lt ?_ (List.mem_map_of_mem member)
    rw [Option.mem_def.mp isCurrent]
    rfl
  single := by
    intro first second isFirst isSecond
    rw [ordered.running] at isFirst isSecond
    exact Option.some.inj (isFirst.symm.trans isSecond)
  isRunning := by
    simp only [← ordered.mem_line]
    rw [← List.length_pos_iff_exists_mem, List.length_pos_iff, Ne, line_eq_nil,
      ← isRunning_eq_false, Bool.not_eq_false]
  visited := by
    intro id
    rw [map_fst_jobs, ordered.mem_line]
    cases runner.status id <;> simp [JobStatus.isDone]
  inOrder := by
    rw [map_fst_jobs]
    exact ordered.ascending
  truthful := by
    intro id job status member
    rw [jobs, List.mem_append, List.mem_map, List.mem_map] at member
    rcases member with ⟨entry, isCurrent, same⟩ | ⟨entry, queued, same⟩
    · cases same
      refine ((ordered.running entry.1).mpr ?_).symm
      rw [Option.mem_toList.mp isCurrent]
      rfl
    · cases same
      exact ((ordered.pending entry.1).mpr (List.mem_map_of_mem queued)).symm

end Runner

namespace Shift

variable {α : Type} {shift : Shift α}

/-- The runner is in order, and its worker has in hand the job that has begun. -/
structure Sound (shift : Shift α) : Prop where
  ordered : shift.runner.Ordered
  numbered : shift.runner.Numbered
  held : shift.runner.current = shift.hand

theorem sound_start : (start : Shift α).Sound :=
  ⟨Runner.ordered_new, Runner.numbered_new, rfl⟩

/-- The job in hand is the one that is running. -/
theorem Sound.current (sound : shift.Sound) {id : JobId} {job : α}
    (holding : shift.hand = some (id, job)) :
    shift.runner.current.map Prod.fst = some id := by
  rw [sound.held, holding]
  rfl

/-- **Every move keeps a shift sound**, if there is a number for what is posted. -/
theorem Sound.move (sound : shift.Sound) (move : Runner.Move α)
    (upward : isPost move = true → shift.runner.lastId < shift.runner.lastId + 1) :
    (shift.move move).Sound := by
  obtain ⟨ordered, numbered, held⟩ := sound
  cases move with
  | post job => exact ⟨ordered.post (upward rfl) job, numbered.post (upward rfl) job, held⟩
  | look => exact ⟨ordered, numbered, held⟩
  | clear => exact ⟨ordered.clear, numbered.clear ordered, held⟩
  | close => exact ⟨ordered.close, numbered.close ordered, held⟩
  | take =>
    rcases shift.move_take_cases with same | ⟨id, job, free, queued, taken, moved⟩
    · rw [same]
      exact ⟨ordered, numbered, held⟩
    · rw [moved]
      exact ⟨ordered.take (held.trans free), numbered.take ordered, Runner.current_take taken⟩
  | finish reply =>
    rcases shift.move_finish_cases reply with ⟨-, same⟩ | ⟨id, job, holding, moved⟩
    · rw [same]
      exact ⟨ordered, numbered, held⟩
    · have current := held.trans holding
      have isCurrent : shift.runner.current.map Prod.fst = some id := by
        rw [current]
        rfl
      rw [moved]
      exact ⟨ordered.finish current _, numbered.finish ordered isCurrent _, rfl⟩

/-- Only a post gives a number. -/
theorem lastId_move (shift : Shift α) (move : Runner.Move α) :
    (shift.move move).runner.lastId =
      if isPost move then shift.runner.lastId + 1 else shift.runner.lastId := by
  cases move with
  | post | look | clear | close => rfl
  | take =>
    rcases shift.move_take_cases with same | ⟨id, job, free, queued, taken, moved⟩
    · rw [same]
      rfl
    · rw [moved]
      rcases shift.runner.take_cases with nothing | ⟨first, rest, -, took⟩
      · rw [nothing]
        rfl
      · rw [took]
        rfl
  | finish reply =>
    rcases shift.move_finish_cases reply with ⟨-, same⟩ | ⟨id, job, -, moved⟩
    · rw [same]
      rfl
    · rw [moved]
      rfl

/-- There is a number for each of a few posts. -/
theorem lt_next_of_few {counter : UInt64} (few : counter.toNat + 1 < UInt64.size) :
    counter < counter + 1 := by
  rw [UInt64.lt_iff_toNat_lt, UInt64.toNat_add]
  simp only [UInt64.size, UInt64.reduceToNat] at few ⊢
  omega

/-- **After any moves a shift is sound**, and the number given last is the number of
posts. -/
theorem sound_run (moves : List (Runner.Move α)) (few : posts moves < UInt64.size) :
    (run moves).Sound ∧ (run moves).runner.lastId.toNat = posts moves := by
  induction moves using List.reverseRecOn with
  | nil => exact ⟨sound_start, rfl⟩
  | append_singleton moves last ih =>
    obtain ⟨sound, counted⟩ := ih (Nat.lt_of_le_of_lt (posts_le_append moves _) few)
    rw [posts_concat] at few
    have room : isPost last = true →
        (run moves).runner.lastId.toNat + 1 < UInt64.size := by
      intro isPost
      rw [isPost] at few
      rw [counted]
      exact few
    rw [run_concat, posts_concat]
    refine ⟨sound.move last fun isPost => lt_next_of_few (room isPost), ?_⟩
    rw [lastId_move]
    cases posted : isPost last with
    | false => exact counted
    | true =>
      have within := room posted
      rw [if_pos rfl, UInt64.toNat_add, ← counted]
      exact Nat.mod_eq_of_lt within

/-- There is a number for the last of a few posts. -/
theorem lt_next_run {moves : List (Runner.Move α)} {last : Runner.Move α}
    (few : posts (moves ++ [last]) < UInt64.size) (isPost : isPost last = true) :
    (run moves).runner.lastId < (run moves).runner.lastId + 1 := by
  refine lt_next_of_few ?_
  rw [(sound_run moves (Nat.lt_of_le_of_lt (posts_le_append moves [last]) few)).2]
  rw [posts_concat, isPost] at few
  exact few

/-- A job that is done stands where it stood. -/
theorem Sound.status_of_done (sound : shift.Sound) (move : Runner.Move α)
    (upward : isPost move = true → shift.runner.lastId < shift.runner.lastId + 1) {id : JobId}
    (done : (shift.runner.status id).isDone = true) :
    (shift.move move).runner.status id = shift.runner.status id := by
  have ordered := sound.ordered
  cases move with
  | post job => exact Runner.status_post_of_done ordered done (upward rfl) job
  | look => rfl
  | clear => exact Runner.status_clear_of_done ordered done
  | close => exact Runner.status_clear_of_done ordered done
  | take =>
    rcases shift.move_take_cases with same | ⟨_, _, _, _, _, moved⟩
    · rw [same]
    · rw [moved]
      exact Runner.status_take_of_done ordered done
  | finish reply =>
    rcases shift.move_finish_cases reply with ⟨-, same⟩ | ⟨_, _, holding, moved⟩
    · rw [same]
    · rw [moved]
      exact Runner.status_finish_of_done ordered done (sound.current holding) _

/-- **After any moves the parts of the runner agree, and a job that was done before
the last of them stands where it stood.** -/
theorem run_agrees (moves : List (Runner.Move α)) (few : posts moves < UInt64.size) :
    (run moves).runner.Agreeing ∧
    ∀ earlier later, moves = earlier ++ later → ∀ id,
      ((run earlier).runner.status id).isDone = true →
        (run moves).runner.status id = (run earlier).runner.status id := by
  obtain ⟨sound, -⟩ := sound_run moves few
  refine ⟨sound.ordered.agreeing sound.numbered, ?_⟩
  rintro earlier later rfl id done
  induction later using List.reverseRecOn with
  | nil => rw [List.append_nil]
  | append_singleton later last ih =>
    rw [← List.append_assoc] at few ⊢
    have fewer := Nat.lt_of_le_of_lt (posts_le_append (earlier ++ later) [last]) few
    have before := (sound_run _ fewer).1
    have same := ih fewer before
    have stays := before.status_of_done last (lt_next_run few) (by rw [same]; exact done)
    rw [run_concat, stays, same]

/-- Of two jobs the first one crashes and the second one is dropped; a third one is
running when the runner is closed. -/
def crashing : List (Runner.Move Unit) :=
  [.post (), .post (), .take, .finish .crashed, .clear, .post (), .look, .take, .close]

theorem run_agrees_crashing :
    posts crashing < UInt64.size ∧ (run crashing).runner.Agreeing ∧
    ((run (crashing.take 4)).runner.status ⟨1⟩).isDone = true ∧
    (run crashing).runner.status ⟨1⟩ = (run (crashing.take 4)).runner.status ⟨1⟩ := by
  have few : posts crashing < UInt64.size := by decide
  have done : ((run (crashing.take 4)).runner.status ⟨1⟩).isDone = true := by decide
  obtain ⟨agreeing, stays⟩ := run_agrees crashing few
  exact ⟨few, agreeing, done, stays _ _ (List.take_append_drop 4 crashing).symm _ done⟩

end Shift

end ScreenPilot
