import ScreenPilot.Proofs.Activity.Among

/-!
# Activities in surroundings

Surroundings answer every question and say what others make of the shared state before
each step. In them an activity takes one course (`Surroundings.carry`), and what it
ensures among others holds at the end of that course (`carry_of_ensures`).

An activity that follows a wait for so many rounds only may have to leave it open. One
that has more patience then goes on, and otherwise it takes the same course
(`Extends`). An activity returns if all with enough patience take one course (`Returns`).
-/

set_option autoImplicit false

namespace ScreenPilot

/-- What surrounds an activity, with a state of the world that others see. -/
structure Surroundings (interface : Interface) (σ ω : Type) where
  /-- What others make of the state before a step. -/
  meanwhile : σ × ω → σ × ω
  answer : (question : interface.Question) → σ × ω → interface.Answer question × ω

namespace Surroundings

variable {interface : Interface} {σ ω α β : Type} (surroundings : Surroundings interface σ ω)

/-- The course of an activity: its value and what is there in the end. -/
def carry (activity : Activity interface σ α) : StateM (σ × ω) α :=
  activity.run
    (fun change before =>
      let (found, world) := surroundings.meanwhile before
      (found, change found, world))
    (fun question before =>
      let (answer, world) := surroundings.answer question before
      (answer, before.1, world))

/-- Others do what these surroundings do. -/
def setting : Setting σ where
  others before after := ∃ world world', surroundings.meanwhile (before, world) = (after, world')
  own _ _ := True

/-- The course of one activity after the other. -/
theorem carry_bind (first : Activity interface σ α) (next : α → Activity interface σ β)
    (before : σ × ω) :
    surroundings.carry (first >>= next) before =
      surroundings.carry (next (surroundings.carry first before).1)
        (surroundings.carry first before).2 := by
  show surroundings.carry (first.bind next) before = _
  induction first generalizing before with
  | done value => rfl
  | step change rest ih => exact ih _ _
  | ask question rest ih => exact ih _ _

/-- The course of an activity is one of those it may take among others. -/
theorem ends_carry (activity : Activity interface σ α) (before : σ × ω) :
    activity.Ends surroundings.setting before.1 (surroundings.carry activity before).1
      (surroundings.carry activity before).2.1 := by
  induction activity generalizing before with
  | done value => exact .done value _
  | step change next ih =>
    let found := surroundings.meanwhile before
    exact .step ⟨before.2, found.2, rfl⟩ trivial (ih found.1 (change found.1, found.2))
  | ask question next ih =>
    let answered := surroundings.answer question before
    exact .ask answered.1 (ih answered.1 (before.1, answered.2))

/-- What an activity ensures among others holds at the end of its course. -/
theorem carry_of_ensures {activity : Activity interface σ α} {before : σ × ω}
    {holds : α → σ → Prop}
    (ensures : activity.Ensures surroundings.setting before.1 holds) :
    holds (surroundings.carry activity before).1 (surroundings.carry activity before).2.1 :=
  ensures _ _ (surroundings.ends_carry activity before)

/-- With enough patience, an activity comes to a value, and more patience changes
nothing. -/
def Returns (activity : Nat → Activity interface σ α) (before : σ × ω) (value : α)
    (final : σ × ω) : Prop :=
  ∃ patience, ∀ more, patience ≤ more → surroundings.carry (activity more) before = (value, final)

variable {surroundings}

/-- An activity that does not wait returns. -/
theorem returns_const (activity : Activity interface σ α) (before : σ × ω) :
    surroundings.Returns (fun _ => activity) before (surroundings.carry activity before).1
      (surroundings.carry activity before).2 :=
  ⟨0, fun _ _ => rfl⟩

/-- One activity after the other returns what the second returns after the first. -/
theorem Returns.bind {first : Nat → Activity interface σ α}
    {next : Nat → α → Activity interface σ β} {before middle final : σ × ω} {value : α}
    {result : β} (returns : surroundings.Returns first before value middle)
    (then' : surroundings.Returns (next · value) middle result final) :
    surroundings.Returns (fun patience => first patience >>= next patience) before result
      final := by
  obtain ⟨patience, course⟩ := returns
  obtain ⟨patience', course'⟩ := then'
  refine ⟨max patience patience', fun more enough => ?_⟩
  rw [carry_bind, course more (Nat.le_trans (Nat.le_max_left ..) enough)]
  exact course' more (Nat.le_trans (Nat.le_max_right ..) enough)

end Surroundings

namespace Activity

variable {interface : Interface} {σ ω α β : Type}

/-- The second activity is the first one, except that it may go on where the first one
ends with something open. -/
inductive Extends (isOpen : α → Prop) :
    Activity interface σ α → Activity interface σ α → Prop where
  | more {value : α} (open' : isOpen value) (longer : Activity interface σ α) :
      Extends isOpen (.done value) longer
  | done (value : α) : Extends isOpen (.done value) (.done value)
  | step {change : σ → σ} {next next' : σ → Activity interface σ α}
      (rest : ∀ state, Extends isOpen (next state) (next' state)) :
      Extends isOpen (.step change next) (.step change next')
  | ask {question : interface.Question}
      {next next' : interface.Answer question → Activity interface σ α}
      (rest : ∀ answer, Extends isOpen (next answer) (next' answer)) :
      Extends isOpen (.ask question next) (.ask question next')

namespace Extends

variable {isOpen : α → Prop} {isOpen' : β → Prop}

theorem refl (activity : Activity interface σ α) : Extends isOpen activity activity := by
  induction activity with
  | done value => exact .done value
  | step change next ih => exact .step ih
  | ask question next ih => exact .ask ih

/-- Activities that go on after extended ones: what is open stays open, and what follows
something else is extended as well. -/
theorem bind {short long : Activity interface σ α} {next next' : α → Activity interface σ β}
    (extends' : Extends isOpen short long)
    (stays : ∀ value, isOpen value → ∃ last, next value = .done last ∧ isOpen' last)
    (after : ∀ value, Extends isOpen' (next value) (next' value)) :
    Extends isOpen' (short >>= next) (long >>= next') := by
  show Extends isOpen' (short.bind next) (long.bind next')
  induction extends' with
  | more isOpen longer =>
    obtain ⟨last, ends, open'⟩ := stays _ isOpen
    rw [Activity.bind, ends]
    exact .more open' _
  | done value => exact after value
  | step _ ih => exact .step ih
  | ask _ ih => exact .ask ih

/-- What follows an activity is extended. -/
theorem after {first : Activity interface σ α} {next next' : α → Activity interface σ β}
    (after : ∀ value, Extends isOpen' (next value) (next' value)) :
    Extends isOpen' (first >>= next) (first >>= next') :=
  (refl first : Extends (fun _ => False) first first).bind nofun after

/-- **Unless something is left open, the course of an extended activity is the same.** -/
theorem carry {short long : Activity interface σ α} (extends' : Extends isOpen short long)
    (surroundings : Surroundings interface σ ω) {before : σ × ω}
    (closed : ¬ isOpen (surroundings.carry short before).1) :
    surroundings.carry long before = surroundings.carry short before := by
  induction extends' generalizing before with
  | more isOpen longer => exact absurd isOpen closed
  | done value => rfl
  | step _ ih => exact ih _ closed
  | ask _ ih => exact ih _ closed

/-- An activity that leaves nothing open with some patience returns. -/
theorem returns {activity : Nat → Activity interface σ α}
    (extends' : ∀ patience more, patience ≤ more →
      Extends isOpen (activity patience) (activity more))
    {surroundings : Surroundings interface σ ω} {before : σ × ω} {patience : Nat}
    (closed : ¬ isOpen (surroundings.carry (activity patience) before).1) :
    surroundings.Returns activity before (surroundings.carry (activity patience) before).1
      (surroundings.carry (activity patience) before).2 :=
  ⟨patience, fun more enough => (extends' patience more enough).carry surroundings closed⟩

end Extends

end Activity

end ScreenPilot
