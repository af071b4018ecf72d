import ScreenPilot.Proofs.Activity.Timelines
import ScreenPilot.Proofs.Run.Returns

/-!
# Waiting for a still screen

The stock actuator captures the screen, and again after each pause, until the screen has been
still for long enough or the wait takes too long. `Watched` is the timeline of a wait: whether
there is time left is looked at before each capture but the first, and the clock is read after
each one that gave a frame.

A wait reports stillness at the first capture with which the frames have been equal for long
enough (`Still`), and goes on for the lack of time without another capture (`awaitStill_reports`).
What carries the proof is that the wait remembers the last frame that differed from the one before
it, and when it was taken (`Stretch`): a run of equal frames that ends with the last capture
begins there or later.
-/

set_option autoImplicit false

namespace ScreenPilot

open Activity Engine

namespace Stillness

/-- What happens to a wait, and when it is over. -/
abbrev Moment : Type := Timed outside Engine

/-! ## Frames that stay the same -/

/-- A frame that was captured. -/
structure Shot where
  frame : Frame
  /-- When the capture was over. -/
  ended : Nat
  /-- What the clock showed after it. -/
  taken : Nat

/-- From some capture on, all frames were the same up to the last one, for so long. -/
def Still (period : Nat) (shots : List Shot) : Prop :=
  ∃ earlier first rest last, shots = earlier ++ first :: rest ++ [last] ∧
    (∀ shot ∈ rest ++ [last], shot.frame = first.frame) ∧ period ≤ last.taken - first.taken

/-- The screen has not been still for so long at any capture. -/
def Restless (period : Nat) (shots : List Shot) : Prop :=
  ∀ front, front <+: shots → ¬ Still period front

/-- What a wait remembers of its captures: the last frame that differed from the one before it,
and when it was taken. -/
inductive Stretch : List Shot → Frame → Nat → Prop where
  | first (shot : Shot) : Stretch [shot] shot.frame shot.taken
  | changed {shots : List Shot} {last : Frame} {since : Nat} (stretch : Stretch shots last since)
      {shot : Shot} (differs : shot.frame ≠ last) :
      Stretch (shots ++ [shot]) shot.frame shot.taken
  | same {shots : List Shot} {last : Frame} {since : Nat} (stretch : Stretch shots last since)
      {shot : Shot} (equal : shot.frame = last) (later : since ≤ shot.taken) :
      Stretch (shots ++ [shot]) last since

section Frames

variable {period since : Nat} {shots : List Shot} {shot : Shot} {last : Frame}

/-- A place in a longer list is the last one, or one in the list before. -/
theorem split_concat {earlier rest : List Shot} {first : Shot}
    (split : shots ++ [shot] = earlier ++ first :: rest) :
    rest = [] ∧ first = shot ∨
      ∃ rest', rest = rest' ++ [shot] ∧ shots = earlier ++ first :: rest' := by
  obtain rfl | ⟨front, back, rfl⟩ := List.eq_nil_or_concat rest
  · cases (List.append_inj' split rfl).2
    exact .inl ⟨rfl, rfl⟩
  · rw [List.concat_eq_append, ← List.cons_append, ← List.append_assoc] at split
    obtain ⟨same, last⟩ := List.append_inj' split rfl
    cases last
    exact .inr ⟨front, List.concat_eq_append, same⟩

/-- From what is remembered on, all frames are the same. -/
theorem Stretch.begins (stretch : Stretch shots last since) :
    ∃ earlier first rest, shots = earlier ++ first :: rest ∧ first.taken = since ∧
      first.frame = last ∧ ∀ shot ∈ rest, shot.frame = last := by
  induction stretch with
  | first shot => exact ⟨[], shot, [], rfl, rfl, rfl, nofun⟩
  | changed _ _ => exact ⟨_, _, [], rfl, rfl, rfl, nofun⟩
  | @same _ _ _ _ shot equal _ ih =>
    obtain ⟨earlier, first, rest, rfl, taken, frame, all⟩ := ih
    refine ⟨earlier, first, rest ++ [shot], by simp, taken, frame, ?_⟩
    exact List.forall_mem_append.mpr ⟨all, List.forall_mem_singleton.mpr equal⟩

/-- A run of equal frames that ends with the last capture begins there or later. -/
theorem Stretch.no_earlier (stretch : Stretch shots last since) {earlier rest : List Shot}
    {first : Shot} (split : shots = earlier ++ first :: rest)
    (all : ∀ shot ∈ rest, shot.frame = first.frame) :
    first.frame = last ∧ since ≤ first.taken := by
  induction stretch generalizing rest with
  | first shot =>
    have only : [] ++ [shot] = earlier ++ first :: rest := split
    obtain ⟨rfl, rfl⟩ | ⟨_, rfl, none⟩ := split_concat only
    · exact ⟨rfl, Nat.le_refl _⟩
    · simp at none
  | @changed _ _ _ _ shot differs ih =>
    obtain ⟨rfl, rfl⟩ | ⟨front, rfl, shorter⟩ := split_concat split
    · exact ⟨rfl, Nat.le_refl _⟩
    · obtain ⟨all, equal⟩ := List.forall_mem_append.mp all
      have before := (ih shorter all).1
      exact absurd ((List.forall_mem_singleton.mp equal).trans before) differs
  | @same _ _ _ _ shot equal later ih =>
    obtain ⟨rfl, rfl⟩ | ⟨front, rfl, shorter⟩ := split_concat split
    · exact ⟨equal, later⟩
    · exact ih shorter (List.forall_mem_append.mp all).1

/-- The screen has been still at a capture if the frame is the one remembered, and was taken long
enough after it. -/
theorem Stretch.still_concat (stretch : Stretch shots last since) :
    Still period (shots ++ [shot]) ↔ shot.frame = last ∧ period ≤ shot.taken - since := by
  constructor
  · rintro ⟨earlier, first, rest, final, split, all, long⟩
    obtain ⟨same, final⟩ := List.append_inj' split rfl
    cases final
    obtain ⟨all, equal⟩ := List.forall_mem_append.mp all
    obtain ⟨frame, later⟩ := stretch.no_earlier same all
    refine ⟨(List.forall_mem_singleton.mp equal).trans frame, Nat.le_trans long ?_⟩
    exact Nat.sub_le_sub_left later _
  · rintro ⟨equal, long⟩
    obtain ⟨earlier, first, rest, rfl, rfl, rfl, all⟩ := stretch.begins
    refine ⟨earlier, first, rest, shot, rfl, ?_, long⟩
    exact List.forall_mem_append.mpr ⟨all, List.forall_mem_singleton.mpr equal⟩

theorem Restless.concat (restless : Restless period shots)
    (moved : ¬ Still period (shots ++ [shot])) : Restless period (shots ++ [shot]) := by
  intro front isFront
  rcases List.prefix_concat_iff.mp isFront with rfl | isFront
  · exact moved
  · exact restless front isFront

/-- One capture is not enough to tell. -/
theorem restless_first (shot : Shot) : Restless period [shot] := by
  rintro front ⟨back, split⟩ ⟨earlier, first, rest, last, rfl, -⟩
  have short := congrArg List.length split
  simp at short
  omega

end Frames

/-! ## What happens during a wait -/

/-- A rest, and whether to go on: a stop was not seen when the rest was over. -/
inductive Rests (signal : StopSignal) (duration : Nat) : List Moment → Bool → Prop where
  | once (time : Nat) (found : Engine)
      (short : found.stopped.contains signal.task = true ∨ duration = 0) :
      Rests signal duration [(time, .step found found)] (!found.stopped.contains signal.task)
  | twice (time woken looked : Nat) {found : Engine} (later : Engine)
      (calm : found.stopped.contains signal.task = false) (long : duration ≠ 0) :
      Rests signal duration
        [(time, .step found found), (woken, .call (.rest signal.poll duration) (some ())),
          (looked, .step later later)]
        (!later.stopped.contains signal.task)

/-- A capture, and when it was over. It is counted unless it crashes. -/
inductive Captures (controller : Handle) : List Moment → Reply (Option Frame) → Nat → Prop where
  | crashed (ended : Nat) :
      Captures controller [(ended, .call (.capture controller) (some .crashed))] .crashed ended
  | returned (frame : Option Frame) (ended counted : Nat) (found : Engine) :
      Captures controller
        [(ended, .call (.capture controller) (some (.returned frame))),
          (counted, .step found
            { found with stats := found.stats.countCapture frame.isSome })]
        (.returned frame) ended

/-- The clock is read. -/
def shows (time : Nat) : Moment := (time, .call .now (some time))

/-- How a wait ends. -/
inductive Ending where
  /-- The screen was still for long enough. -/
  | still
  /-- There was no time left. -/
  | late
  /-- A stop was seen. -/
  | halted
  /-- A capture failed. -/
  | blind
  | crashed
  | unfinished

/-- A wait ends when a capture does not give a frame. -/
inductive Fails : Reply (Option Frame) → Ending → Prop where
  | blind : Fails (.returned none) .blind
  | crashed : Fails .crashed .crashed

/-- What comes of a wait. -/
def Ending.waited : Ending → Actuator.Waited
  | .still | .late => .ended true
  | .halted | .blind => .ended false
  | .crashed => .crashed
  | .unfinished => .unfinished

/-- The rounds of a wait, for at most so many, the frames they gave and the end. A round rests and
looks whether there is time left before it captures. -/
inductive Polls (signal : StopSignal) (controller : Handle) (wait : WaitFreezes) (started : Nat) :
    Nat → List Moment → List Shot → Ending → Prop where
  /-- The last round showed that the screen was still. -/
  | still (patience : Nat) : Polls signal controller wait started patience [] [] .still
  | unfinished : Polls signal controller wait started 0 [] [] .unfinished
  | halted {patience : Nat} {resting : List Moment}
      (rests : Rests signal (nanoseconds wait.rateLimit) resting false) :
      Polls signal controller wait started (patience + 1) resting [] .halted
  | late {patience : Nat} {resting : List Moment} {checked : Nat}
      (rests : Rests signal (nanoseconds wait.rateLimit) resting true)
      (reached : nanoseconds wait.timeout ≤ checked - started) :
      Polls signal controller wait started (patience + 1) (resting ++ [shows checked]) [] .late
  | failed {patience : Nat} {resting capturing : List Moment} {checked ended : Nat}
      {reply : Reply (Option Frame)} {ending : Ending}
      (rests : Rests signal (nanoseconds wait.rateLimit) resting true)
      (early : checked - started < nanoseconds wait.timeout)
      (captures : Captures controller capturing reply ended) (fails : Fails reply ending) :
      Polls signal controller wait started (patience + 1)
        (resting ++ shows checked :: capturing) [] ending
  | poll {patience : Nat} {resting capturing later : List Moment} {checked : Nat} {shot : Shot}
      {shots : List Shot} {ending : Ending}
      (rests : Rests signal (nanoseconds wait.rateLimit) resting true)
      (early : checked - started < nanoseconds wait.timeout)
      (captures : Captures controller capturing (.returned (some shot.frame)) shot.ended)
      (onward : shot.ended ≤ shot.taken)
      (rest : Polls signal controller wait started patience later shots ending) :
      Polls signal controller wait started (patience + 1)
        (resting ++ shows checked :: (capturing ++ shows shot.taken :: later)) (shot :: shots)
        ending

/-- A whole wait, the frames it was given and its end. -/
inductive Watched (signal : StopSignal) (controller : Handle) (wait : WaitFreezes)
    (patience : Nat) : List Moment → List Shot → Ending → Prop where
  | failed {started ended : Nat} {capturing : List Moment} {reply : Reply (Option Frame)}
      {ending : Ending} (captures : Captures controller capturing reply ended)
      (fails : Fails reply ending) :
      Watched signal controller wait patience (shows started :: capturing) [] ending
  | watched {started : Nat} {capturing later : List Moment} {shot : Shot} {shots : List Shot}
      {ending : Ending}
      (captures : Captures controller capturing (.returned (some shot.frame)) shot.ended)
      (onward : shot.ended ≤ shot.taken)
      (polls : Polls signal controller wait started patience later shots ending) :
      Watched signal controller wait patience
        (shows started :: (capturing ++ shows shot.taken :: later)) (shot :: shots) ending

end Stillness

/-- The clock of these surroundings never goes back, and is what is shown when asked for the
time. -/
structure Surroundings.Ticks {ω : Type} (surroundings : Surroundings outside Engine ω)
    (clock : ω → Nat) : Prop extends surroundings.Onward clock where
  now : ∀ before, surroundings.answer .now before =
    (clock (surroundings.answer .now before).2, (surroundings.answer .now before).2)

namespace Stillness

/-! ## The small activities -/

variable {ω : Type} {surroundings : Surroundings outside Engine ω} {clock : ω → Nat}

theorem sleep_rests (surroundings : Surroundings outside Engine ω) (clock : ω → Nat)
    (signal : StopSignal) (duration : Nat) (before : Engine × ω) :
    ∃ resting goOn final,
      surroundings.Unfolds clock (sleep signal duration) before resting goOn final ∧
      Rests signal duration resting goOn := by
  obtain ⟨time, found, middle, looks⟩ := Surroundings.Unfolds.exists_reads surroundings clock
    (fun engine => engine.stopped.contains signal.task) before
  unfold sleep isStopped
  cases asked : found.stopped.contains signal.task with
  | true =>
    rw [asked] at looks
    have rests : Rests signal duration _ _ := .once time found (.inl asked)
    rw [asked] at rests
    exact ⟨_, _, middle, looks.bind (.pure false), rests⟩
  | false =>
    rw [asked] at looks
    by_cases instant : duration = 0
    · have rests : Rests signal duration _ _ := .once time found (.inr instant)
      rw [asked] at rests
      refine ⟨_, _, middle, looks.bind ?_, rests⟩
      rw [if_pos instant]
      exact .pure true
    · obtain ⟨woken, _, rested, rests⟩ := Surroundings.Unfolds.exists_ask surroundings clock
        (.rest signal.poll duration) middle
      obtain ⟨looked, later, final, looks'⟩ := Surroundings.Unfolds.exists_reads surroundings clock
        (fun engine => engine.stopped.contains signal.task) rested
      refine ⟨_, _, final, looks.bind ?_, .twice time woken looked later asked instant⟩
      have goOn : (!later.stopped.contains signal.task) =
          decide ¬ later.stopped.contains signal.task = true := by
        cases later.stopped.contains signal.task <;> rfl
      rw [if_neg instant, goOn]
      exact rests.bind (looks'.bind (.pure _))

theorem now_shows (ticks : surroundings.Ticks clock) (before : Engine × ω) :
    ∃ final, surroundings.Unfolds clock now before [shows (clock final.2)] (clock final.2) final := by
  let shown := surroundings.answer .now before
  have reads : surroundings.Unfolds clock now before [(clock shown.2, .call .now (some shown.1))]
      shown.1 (before.1, shown.2) := .ask (.pure _)
  have same : shown.1 = clock shown.2 := congrArg Prod.fst (ticks.now before)
  rw [same] at reads
  exact ⟨(before.1, shown.2), reads⟩

theorem capture_captures (onward : surroundings.Onward clock) (controller : Handle)
    (before : Engine × ω) :
    ∃ capturing reply ended final,
      surroundings.Unfolds clock (capture controller) before capturing reply final ∧
      Captures controller capturing reply ended ∧ ended ≤ clock final.2 := by
  let replied := surroundings.answer (.capture controller) before
  have asks : surroundings.Unfolds clock (.ask (.capture controller) .done) before
      [(clock replied.2, .call (.capture controller) (some replied.1))] replied.1
      (before.1, replied.2) := .ask (.pure _)
  unfold capture
  match isReply : replied.1 with
  | .crashed =>
    rw [isReply] at asks
    exact ⟨_, _, _, (before.1, replied.2), asks.bind (.pure Reply.crashed), .crashed _,
      Nat.le_refl _⟩
  | .returned frame =>
    rw [isReply] at asks
    have later := onward.meanwhile (before.1, replied.2)
    exact ⟨_, _, _, _, asks.bind (.bind (.step (.pure _)) (.pure _)), .returned frame _ _ _, later⟩

/-! ## Whole waits -/

/-- What the end of a wait that returns at a time tells of the frames it was given. -/
structure Reports (period : Nat) (shots : List Shot) (ending : Ending) (returned : Nat) : Prop where
  /-- Stillness is reported if the screen was still with the last capture, and only then. -/
  still_iff : ending = .still ↔ Still period shots
  /-- It was not so with any capture before. -/
  first : ∀ front, front <+: shots → front ≠ shots → ¬ Still period front
  last : ending = .still → ∃ front shot, shots = front ++ [shot] ∧ shot.taken = returned

theorem Restless.reports {period returned : Nat} {shots : List Shot} {ending : Ending}
    (restless : Restless period shots) (other : ending ≠ .still) :
    Reports period (shots ++ []) ending returned := by
  rw [List.append_nil]
  refine ⟨⟨fun still => absurd still other, fun still => ?_⟩, fun front isFront _ => ?_,
    fun still => absurd still other⟩
  · exact absurd still (restless shots (List.prefix_refl _))
  · exact restless front isFront

theorem Restless.reports_still {period : Nat} {shots : List Shot} {shot : Shot}
    (restless : Restless period shots) (still : Still period (shots ++ [shot])) :
    Reports period (shots ++ [shot] ++ []) .still shot.taken := by
  rw [List.append_nil]
  refine ⟨⟨fun _ => still, fun _ => rfl⟩, fun front isFront shorter => ?_,
    fun _ => ⟨shots, shot, rfl, rfl⟩⟩
  rcases List.prefix_concat_iff.mp isFront with whole | isFront
  · exact absurd whole shorter
  · exact restless front isFront

section Watch

variable {signal : StopSignal} {controller : Handle} {wait : WaitFreezes}
  {started patience since : Nat} {shots : List Shot} {last : Frame} {shot : Shot}
  {before shown : Engine × ω}

/-- A wait that goes on has rounds and an end that tells of all frames. -/
def Concludes (surroundings : Surroundings outside Engine ω) (clock : ω → Nat)
    (signal : StopSignal) (controller : Handle) (wait : WaitFreezes) (started patience : Nat)
    (shots : List Shot) (activity : Acting Actuator.Waited) (before : Engine × ω) : Prop :=
  ∃ events more ending final,
    surroundings.Unfolds clock activity before events ending.waited final ∧
    Polls signal controller wait started patience events more ending ∧
    Reports (nanoseconds wait.time) (shots ++ more) ending (clock final.2)

/-- What follows a frame, when the clock has been read. -/
def weigh (signal : StopSignal) (controller : Handle) (wait : WaitFreezes)
    (started patience : Nat) (last : Frame) (since : Nat) (shot : Shot) : Acting Actuator.Waited :=
  if shot.frame ≠ last then
    Actuator.watch signal controller wait started patience shot.frame shot.taken
  else if nanoseconds wait.time ≤ shot.taken - since then pure (.ended true)
  else Actuator.watch signal controller wait started patience last since

/-- If a wait that goes on concludes, so does what follows a frame. -/
theorem weigh_concludes
    (goOn : ∀ {shots last since}, Stretch shots last since → since ≤ clock shown.2 →
      Restless (nanoseconds wait.time) shots →
      Concludes surroundings clock signal controller wait started patience shots
        (Actuator.watch signal controller wait started patience last since) shown)
    (stretch : Stretch shots last since) (later : since ≤ shot.taken)
    (restless : Restless (nanoseconds wait.time) shots) (taken : shot.taken = clock shown.2) :
    Concludes surroundings clock signal controller wait started patience (shots ++ [shot])
      (weigh signal controller wait started patience last since shot) shown := by
  have still_iff : Still (nanoseconds wait.time) (shots ++ [shot]) ↔ _ := stretch.still_concat
  unfold weigh
  by_cases differs : shot.frame ≠ last
  · rw [if_pos differs]
    refine goOn (stretch.changed differs) (Nat.le_of_eq taken) (restless.concat fun still => ?_)
    exact differs (still_iff.mp still).1
  · have equal := Decidable.not_not.mp differs
    rw [if_neg differs]
    by_cases long : nanoseconds wait.time ≤ shot.taken - since
    · rw [if_pos long]
      have reports := restless.reports_still (still_iff.mpr ⟨equal, long⟩)
      exact ⟨[], [], .still, shown, .pure _, .still _, taken ▸ reports⟩
    · rw [if_neg long]
      refine goOn (stretch.same equal later) (taken ▸ later) (restless.concat fun still => ?_)
      exact long (still_iff.mp still).2

/-- The clock is read in either case. -/
theorem weigh_reads {events : List Moment} {waited : Actuator.Waited} {final : Engine × ω}
    (reads : surroundings.Unfolds clock now before [shows shot.taken] shot.taken shown)
    (unfolds : surroundings.Unfolds clock
      (weigh signal controller wait started patience last since shot) shown events waited final) :
    surroundings.Unfolds clock
      (if shot.frame ≠ last then do
        Actuator.watch signal controller wait started patience shot.frame (← now)
      else do
        if nanoseconds wait.time ≤ (← now) - since then pure (.ended true)
        else Actuator.watch signal controller wait started patience last since)
      before (shows shot.taken :: events) waited final := by
  unfold weigh at unfolds
  by_cases differs : shot.frame ≠ last
  · rw [if_pos differs] at unfolds ⊢
    exact reads.bind unfolds
  · rw [if_neg differs] at unfolds ⊢
    exact reads.bind unfolds

/-- **A wait that goes on concludes.** -/
theorem watch_concludes (ticks : surroundings.Ticks clock) (stretch : Stretch shots last since)
    (later : since ≤ clock before.2) (restless : Restless (nanoseconds wait.time) shots) :
    Concludes surroundings clock signal controller wait started patience shots
      (Actuator.watch signal controller wait started patience last since) before := by
  induction patience generalizing shots last since before with
  | zero => exact ⟨[], [], .unfinished, before, .pure _, .unfinished, restless.reports nofun⟩
  | succ patience ih =>
    unfold Actuator.watch
    obtain ⟨resting, goOn, rested, sleeps, rests⟩ :=
      sleep_rests surroundings clock signal (nanoseconds wait.rateLimit) before
    cases goOn with
    | false =>
      exact ⟨_, [], .halted, rested, sleeps.close rfl, .halted rests, restless.reports nofun⟩
    | true =>
      obtain ⟨checked, looks⟩ := now_shows ticks rested
      by_cases reached : nanoseconds wait.timeout ≤ clock checked.2 - started
      · exact ⟨_, [], .late, checked, sleeps.bind (looks.close (if_pos reached)),
          .late rests reached, restless.reports nofun⟩
      have early := Nat.lt_of_not_le reached
      obtain ⟨capturing, reply, ended, captured, takes, captures, ended_le⟩ :=
        capture_captures ticks.toOnward controller checked
      match reply with
      | .crashed =>
        refine ⟨_, [], .crashed, captured, sleeps.bind (looks.bind ?_),
          .failed rests early captures .crashed, restless.reports nofun⟩
        rw [if_neg reached]
        exact takes.close rfl
      | .returned none =>
        refine ⟨_, [], .blind, captured, sleeps.bind (looks.bind ?_),
          .failed rests early captures .blind, restless.reports nofun⟩
        rw [if_neg reached]
        exact takes.close rfl
      | .returned (some frame) =>
        obtain ⟨shown, reads⟩ := now_shows ticks captured
        let shot : Shot := ⟨frame, ended, clock shown.2⟩
        have onward : ended ≤ shot.taken := Nat.le_trans ended_le (reads.onward ticks.toOnward)
        have after : since ≤ shot.taken := calc
          since ≤ clock before.2 := later
          _ ≤ clock rested.2 := sleeps.onward ticks.toOnward
          _ ≤ clock checked.2 := looks.onward ticks.toOnward
          _ ≤ clock captured.2 := takes.onward ticks.toOnward
          _ ≤ clock shown.2 := reads.onward ticks.toOnward
        obtain ⟨events, more, ending, final, unfolds, polls, reports⟩ :=
          weigh_concludes ih stretch after restless (rfl : shot.taken = clock shown.2)
        refine ⟨resting ++ shows (clock checked.2) :: (capturing ++ shows shot.taken :: events),
          shot :: more, ending, final, sleeps.bind (looks.bind ?_),
          .poll rests early captures onward polls, List.append_cons .. ▸ reports⟩
        rw [if_neg reached]
        exact takes.bind (weigh_reads reads unfolds)

end Watch

theorem Polls.onward {signal : StopSignal} {controller : Handle} {wait : WaitFreezes}
    {started patience : Nat} {events : List Moment} {shots : List Shot} {ending : Ending}
    (polls : Polls signal controller wait started patience events shots ending) :
    ∀ shot ∈ shots, shot.ended ≤ shot.taken := by
  induction polls with
  | still | unfinished | halted | late | failed => exact nofun
  | poll _ _ _ onward _ ih => exact List.forall_mem_cons.mpr ⟨onward, ih⟩

/-- The screen was still from the end of a capture to the return. -/
theorem Reports.since {period returned : Nat} {shots : List Shot}
    (reports : Reports period shots .still returned)
    (onward : ∀ shot ∈ shots, shot.ended ≤ shot.taken) :
    ∃ earlier first rest, shots = earlier ++ first :: rest ∧
      (∀ shot ∈ rest, shot.frame = first.frame) ∧ period ≤ returned - first.ended := by
  obtain ⟨earlier, first, rest, last, split, all, long⟩ := reports.still_iff.mp rfl
  obtain ⟨front, final, split', taken⟩ := reports.last rfl
  have same : final = last := by
    have both := split'.symm.trans split
    exact List.singleton_injective (List.append_inj' both rfl).2
  refine ⟨earlier, first, rest ++ [last], split.trans (by simp), all, Nat.le_trans long ?_⟩
  rw [← taken, same]
  exact Nat.sub_le_sub_left (onward first (by simp [split])) _

/-- **A wait reports stillness at the first capture with which the screen has been still for long
enough, goes on without a capture when there is no time left, and is given up only if a stop was
seen or a capture failed.** -/
theorem awaitStill_reports (ticks : surroundings.Ticks clock) (signal : StopSignal)
    (patience : Nat) (controller : Handle) (wait : WaitFreezes) (enabled : wait.isEnabled = true)
    (before : Engine × ω) :
    ∃ events shots ending final,
      surroundings.Unfolds clock (Actuator.awaitStillStock signal patience controller wait) before
        events ending.waited final ∧
      Watched signal controller wait patience events shots ending ∧
      Reports (nanoseconds wait.time) shots ending (clock final.2) ∧
      (ending = .still → ∃ earlier first rest, shots = earlier ++ first :: rest ∧
        (∀ shot ∈ rest, shot.frame = first.frame) ∧
        nanoseconds wait.time ≤ clock final.2 - first.ended) := by
  have blank : Restless (nanoseconds wait.time) [] := by
    rintro front ⟨back, split⟩ ⟨earlier, first, rest, last, rfl, -⟩
    simp at split
  unfold Actuator.awaitStillStock
  rw [if_neg (not_not_intro enabled)]
  obtain ⟨started, begins⟩ := now_shows ticks before
  obtain ⟨capturing, reply, ended, captured, takes, captures, ended_le⟩ :=
    capture_captures ticks.toOnward controller started
  match reply with
  | .crashed =>
    exact ⟨_, [], .crashed, captured, begins.bind (takes.close rfl), .failed captures .crashed,
      blank.reports nofun, nofun⟩
  | .returned none =>
    exact ⟨_, [], .blind, captured, begins.bind (takes.close rfl), .failed captures .blind,
      blank.reports nofun, nofun⟩
  | .returned (some frame) =>
    obtain ⟨shown, reads⟩ := now_shows ticks captured
    let shot : Shot := ⟨frame, ended, clock shown.2⟩
    have onward : ended ≤ shot.taken := Nat.le_trans ended_le (reads.onward ticks.toOnward)
    obtain ⟨events, more, ending, final, unfolds, polls, reports⟩ :=
      watch_concludes ticks (.first shot) (Nat.le_refl _) (restless_first shot)
    refine ⟨shows (clock started.2) :: (capturing ++ shows shot.taken :: events), shot :: more,
      ending, final, begins.bind (takes.bind (reads.bind unfolds)), .watched captures onward polls,
      reports, ?_⟩
    rintro rfl
    exact reports.since (List.forall_mem_cons.mpr ⟨onward, polls.onward⟩)

/-- The screen never changes, and every answer takes a millisecond. -/
def ticking : Surroundings outside Engine Nat where
  meanwhile := id
  answer question before :=
    ((match question with
      | .now => (before.2 + 1000000 : Nat)
      | question => (RunContext.standstill.answer question (before.1, ())).1),
      before.2 + 1000000)

theorem ticking_ticks : ticking.Ticks id where
  meanwhile _ := Nat.le_refl _
  answer _ before := Nat.le_add_right before.2 1000000
  now _ := rfl

/-- A wait for a screen that never changes ends well. -/
theorem ticking_reports : ∃ events shots ending final,
    ticking.Ticks id ∧ (WaitFreezes.lasting 5).isEnabled = true ∧
    ending.waited = .ended true ∧
    ticking.Unfolds id (Actuator.awaitStillStock ⟨⟨1⟩, 1⟩ 9 0 (.lasting 5)) (.new false, 0) events
      ending.waited final ∧
    Watched ⟨⟨1⟩, 1⟩ 0 (.lasting 5) 9 events shots ending ∧
    Reports (nanoseconds 5) shots ending final.2 := by
  obtain ⟨events, shots, ending, final, unfolds, watched, reports, -⟩ :=
    awaitStill_reports ticking_ticks ⟨⟨1⟩, 1⟩ 9 0 (.lasting 5) rfl (.new false, 0)
  have good : (ticking.carry (Actuator.awaitStillStock ⟨⟨1⟩, 1⟩ 9 0 (.lasting 5))
      (.new false, 0)).1 = .ended true := by rfl
  refine ⟨events, shots, ending, final, ticking_ticks, rfl, ?_, unfolds, watched, reports⟩
  rw [← good, unfolds.course]

end Stillness

end ScreenPilot
