import ScreenPilot.Proofs.Activity.Differences

/-!
# Activities by the clock

Surroundings may have a clock that never goes back (`Surroundings.Onward`). The timeline of an
activity is what happens in its course, each with the time when it was over. `Unfolds` says in
one what an activity comes to and by which timeline; its rules follow the activity.

Where others leave the state alone, what happens is linked: each step finds what the one before
has left (`linked_events`).
-/

set_option autoImplicit false

namespace ScreenPilot

namespace Activity

/-- What happens, and when it is over. -/
abbrev Timed (interface : Interface) (σ : Type) : Type := Nat × Event interface σ

/-- Each step finds the state as the one before has left it, from a first state to a last one. -/
def Linked {interface : Interface} {σ : Type} : σ → List (Event interface σ) → σ → Prop
  | first, [], last => last = first
  | first, .step found after :: events, last => found = first ∧ Linked after events last
  | first, .call _ _ :: events, last => Linked first events last

end Activity

namespace Surroundings

variable {interface : Interface} {σ ω α β : Type}

/-- What happens in the course of an activity by the clock. -/
def timeline (surroundings : Surroundings interface σ ω) (clock : ω → Nat) :
    Activity interface σ α → σ × ω → List (Activity.Timed interface σ)
  | .done _, _ => []
  | .step change next, before =>
    let (found, world) := surroundings.meanwhile before
    (clock world, .step found (change found)) ::
      surroundings.timeline clock (next found) (change found, world)
  | .ask question next, before =>
    let (answer, world) := surroundings.answer question before
    (clock world, .call question (some answer)) ::
      surroundings.timeline clock (next answer) (before.1, world)

/-- The clock never goes back. -/
structure Onward (surroundings : Surroundings interface σ ω) (clock : ω → Nat) : Prop where
  meanwhile : ∀ before, clock before.2 ≤ clock (surroundings.meanwhile before).2
  answer : ∀ question before, clock before.2 ≤ clock (surroundings.answer question before).2

/-- In its course an activity comes to a value, and this is its timeline. -/
structure Unfolds (surroundings : Surroundings interface σ ω) (clock : ω → Nat)
    (activity : Activity interface σ α) (before : σ × ω)
    (timeline : List (Activity.Timed interface σ)) (value : α) (final : σ × ω) : Prop where
  course : surroundings.carry activity before = (value, final)
  timeline : surroundings.timeline clock activity before = timeline

variable {surroundings : Surroundings interface σ ω} {clock : ω → Nat}

theorem map_timeline (surroundings : Surroundings interface σ ω) (clock : ω → Nat)
    (activity : Activity interface σ α) (before : σ × ω) :
    (surroundings.timeline clock activity before).map Prod.snd =
      surroundings.events activity before := by
  induction activity generalizing before with
  | done value => rfl
  | step change next ih => exact congrArg _ (ih _ _)
  | ask question next ih => exact congrArg _ (ih _ _)

theorem timeline_bind (surroundings : Surroundings interface σ ω) (clock : ω → Nat)
    (first : Activity interface σ α) (next : α → Activity interface σ β) (before : σ × ω) :
    surroundings.timeline clock (first >>= next) before =
      surroundings.timeline clock first before ++
        surroundings.timeline clock (next (surroundings.carry first before).1)
          (surroundings.carry first before).2 := by
  show surroundings.timeline clock (first.bind next) before = _
  induction first generalizing before with
  | done value => rfl
  | step change rest ih => exact congrArg _ (ih _ _)
  | ask question rest ih => exact congrArg _ (ih _ _)

/-- Where others leave the state alone, each step finds it as the one before has left it. -/
theorem linked_events (alone : ∀ before, (surroundings.meanwhile before).1 = before.1)
    (activity : Activity interface σ α) (before : σ × ω) :
    Activity.Linked before.1 (surroundings.events activity before)
      (surroundings.carry activity before).2.1 := by
  induction activity generalizing before with
  | done value => rfl
  | step change next ih =>
    let found := surroundings.meanwhile before
    exact ⟨alone before, ih found.1 (change found.1, found.2)⟩
  | ask question next ih =>
    let answered := surroundings.answer question before
    exact ih answered.1 (before.1, answered.2)

/-- An activity takes its time. -/
theorem Onward.carry (onward : surroundings.Onward clock) (activity : Activity interface σ α)
    (before : σ × ω) : clock before.2 ≤ clock (surroundings.carry activity before).2.2 := by
  induction activity generalizing before with
  | done value => exact Nat.le_refl _
  | step change next ih =>
    let found := surroundings.meanwhile before
    exact Nat.le_trans (onward.meanwhile before) (ih found.1 (change found.1, found.2))
  | ask question next ih =>
    let answered := surroundings.answer question before
    exact Nat.le_trans (onward.answer question before) (ih answered.1 (before.1, answered.2))

namespace Unfolds

variable {before middle final : σ × ω} {value : α} {result : β}
  {timeline later : List (Activity.Timed interface σ)}

theorem pure (value : α) :
    surroundings.Unfolds clock (pure value) before [] value before := ⟨rfl, rfl⟩

theorem step {change : σ → σ} {next : σ → Activity interface σ α}
    (rest : surroundings.Unfolds clock (next (surroundings.meanwhile before).1)
      (change (surroundings.meanwhile before).1, (surroundings.meanwhile before).2) timeline value
      final) :
    surroundings.Unfolds clock (.step change next) before
      ((clock (surroundings.meanwhile before).2, .step (surroundings.meanwhile before).1
        (change (surroundings.meanwhile before).1)) :: timeline) value final :=
  ⟨rest.course, congrArg _ rest.timeline⟩

theorem ask {question : interface.Question}
    {next : interface.Answer question → Activity interface σ α}
    (rest : surroundings.Unfolds clock (next (surroundings.answer question before).1)
      (before.1, (surroundings.answer question before).2) timeline value final) :
    surroundings.Unfolds clock (.ask question next) before
      ((clock (surroundings.answer question before).2,
        .call question (some (surroundings.answer question before).1)) :: timeline) value final :=
  ⟨rest.course, congrArg _ rest.timeline⟩

/-- A part of the state is read as it is found. -/
theorem exists_reads (surroundings : Surroundings interface σ ω) (clock : ω → Nat) (part : σ → α)
    (before : σ × ω) :
    ∃ time found final, surroundings.Unfolds clock (Activity.reads part) before
      [(time, .step found found)] (part found) final :=
  ⟨_, _, surroundings.meanwhile before, .step (.pure _)⟩

/-- A question has some answer. -/
theorem exists_ask (surroundings : Surroundings interface σ ω) (clock : ω → Nat)
    (question : interface.Question) (before : σ × ω) :
    ∃ time answer final, surroundings.Unfolds clock (.ask question .done) before
      [(time, .call question (some answer))] answer final :=
  ⟨_, _, (before.1, (surroundings.answer question before).2), .ask (.pure _)⟩

/-- The state is changed at once, and tells a result. -/
theorem exists_transact (surroundings : Surroundings interface σ ω) (clock : ω → Nat)
    (act : σ → α × σ) (before : σ × ω) :
    ∃ time found final, surroundings.Unfolds clock (Activity.transact act) before
      [(time, .step found (act found).2)] (act found).1 final :=
  let found := surroundings.meanwhile before
  ⟨_, _, ((act found.1).2, found.2), .step (.pure _)⟩

/-- One activity after the other. -/
theorem bind {first : Activity interface σ α} {next : α → Activity interface σ β}
    (unfolds : surroundings.Unfolds clock first before timeline value middle)
    (rest : surroundings.Unfolds clock (next value) middle later result final) :
    surroundings.Unfolds clock (first >>= next) before (timeline ++ later) result final := by
  constructor
  · rw [carry_bind, unfolds.course]
    exact rest.course
  · rw [timeline_bind, unfolds.course, unfolds.timeline]
    exact congrArg _ rest.timeline

/-- An activity after which nothing is left to do. -/
theorem close {first : Activity interface σ α} {next : α → Activity interface σ β}
    (unfolds : surroundings.Unfolds clock first before timeline value middle)
    (closed : next value = Pure.pure result) :
    surroundings.Unfolds clock (first >>= next) before timeline result middle := by
  have rest : surroundings.Unfolds clock (next value) middle [] result middle := by
    rw [closed]
    exact .pure result
  have whole := unfolds.bind rest
  rwa [List.append_nil] at whole

/-- The timeline holds the events of the course. -/
theorem events {activity : Activity interface σ α}
    (unfolds : surroundings.Unfolds clock activity before timeline value final) :
    surroundings.events activity before = timeline.map Prod.snd := by
  rw [← unfolds.timeline, map_timeline]

theorem onward {activity : Activity interface σ α}
    (unfolds : surroundings.Unfolds clock activity before timeline value final)
    (onward : surroundings.Onward clock) : clock before.2 ≤ clock final.2 := by
  have later := onward.carry activity before
  rw [unfolds.course] at later
  exact later

end Unfolds

end Surroundings

end ScreenPilot
