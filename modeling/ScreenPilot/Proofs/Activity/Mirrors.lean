import Mathlib.Logic.Relation
import ScreenPilot.Proofs.Activity.Tracks

/-!
# Surroundings that mirror others

Two surroundings may differ in what they would answer to questions that an activity never asks,
or no longer asks once something has happened. An activity that leaves tracks takes the same course
in both, if in each phase they do the same and answer the same to what may be asked in it
(`Tracks.mirrored`). It does and calls the same things then, one by one.

Surroundings may change for good when a question is asked (`Surroundings.upTo`).
-/

set_option autoImplicit false

namespace ScreenPilot

variable {interface : Interface} {σ τ ω ω' α γ φ : Type}

namespace Surroundings

/-- The first surroundings until a question of some kind has been answered, and from then on the
other ones. It is known whether this was so. -/
def upTo (first later : Surroundings interface σ ω) (kind : interface.Question → Bool) :
    Surroundings interface σ (Bool × ω) where
  meanwhile before :=
    let (found, world) := (if before.2.1 then later else first).meanwhile (before.1, before.2.2)
    (found, before.2.1, world)
  answer question before :=
    let (answer, world) :=
      (if before.2.1 then later else first).answer question (before.1, before.2.2)
    (answer, before.2.1 || kind question, world)

/-- Neither others nor answers change what is seen of the world. -/
structure Keeps (surroundings : Surroundings interface σ ω) (view : ω → γ) : Prop where
  meanwhile : ∀ before, view (surroundings.meanwhile before).2 = view before.2
  answer : ∀ question before, view (surroundings.answer question before).2 = view before.2

/-- Where others and answers lead from each world to the next one, the course of an activity
leads to the last one. -/
theorem carry_leads {surroundings : Surroundings interface σ ω} {goes : γ → γ → Prop}
    (view : ω → γ)
    (meanwhile : ∀ before,
      Relation.ReflTransGen goes (view before.2) (view (surroundings.meanwhile before).2))
    (answer : ∀ question before,
      Relation.ReflTransGen goes (view before.2) (view (surroundings.answer question before).2))
    (activity : Activity interface σ α) (before : σ × ω) :
    Relation.ReflTransGen goes (view before.2)
      (view (surroundings.carry activity before).2.2) := by
  induction activity generalizing before with
  | done value => exact .refl
  | step change next ih =>
    have later := ih (surroundings.meanwhile before).1
      (change (surroundings.meanwhile before).1, (surroundings.meanwhile before).2)
    exact (meanwhile before).trans later
  | ask question next ih =>
    have later := ih (surroundings.answer question before).1
      (before.1, (surroundings.answer question before).2)
    exact (answer question before).trans later

/-- As long as the worlds are alike in a phase, others do the same to the state, and what may be
asked is answered the same; and then the worlds are alike in the next phase. -/
structure Mirrors (surroundings : Surroundings interface σ ω) (other : Surroundings interface σ ω')
    (go : φ → Activity.Event interface σ → φ → Prop) (alike : φ → ω → ω' → Prop) : Prop where
  meanwhile : ∀ phase state world world', alike phase world world' →
    (other.meanwhile (state, world')).1 = (surroundings.meanwhile (state, world)).1 ∧
      alike phase (surroundings.meanwhile (state, world)).2 (other.meanwhile (state, world')).2
  step : ∀ phase found after phase' world world', go phase (.step found after) phase' →
    alike phase world world' → alike phase' world world'
  answer : ∀ phase question phase' state world world',
    go phase (.call question (some (surroundings.answer question (state, world)).1)) phase' →
    alike phase world world' →
      (other.answer question (state, world')).1 =
          (surroundings.answer question (state, world)).1 ∧
        alike phase' (surroundings.answer question (state, world)).2
          (other.answer question (state, world')).2

end Surroundings

namespace Activity.Tracks

variable {go : φ → Event interface σ → φ → Prop} {last : φ → α → Prop} {phase : φ}

theorem imp {last' : φ → α → Prop} {activity : Activity interface σ α}
    (tracks : activity.Tracks go last phase)
    (ends : ∀ phase value, last phase value → last' phase value) :
    activity.Tracks go last' phase := by
  induction activity generalizing phase with
  | done value => exact ends phase value tracks
  | step change next ih =>
    intro found
    obtain ⟨phase', allowed, tracks⟩ := tracks found
    exact ⟨phase', allowed, ih found tracks⟩
  | ask question next ih =>
    intro answer
    obtain ⟨phase', allowed, tracks⟩ := tracks answer
    exact ⟨phase', allowed, ih answer tracks⟩

/-- An activity on a part of a state leaves the tracks that it leaves by itself. -/
theorem within {go' : φ → Event interface τ → φ → Prop} {activity : Activity interface σ α}
    (tracks : activity.Tracks go last phase) {get : τ → σ} {put : σ → τ → τ}
    (steps : ∀ phase whole after phase', go phase (.step (get whole) after) phase' →
      go' phase (.step whole (put after whole)) phase')
    (asks : ∀ phase question answer phase', go phase (.call question (some answer)) phase' →
      go' phase (.call question (some answer)) phase') :
    (activity.within get put).Tracks go' last phase := by
  induction activity generalizing phase with
  | done value => exact tracks
  | step change next ih =>
    intro whole
    obtain ⟨phase', allowed, tracks⟩ := tracks (get whole)
    exact ⟨phase', steps _ _ _ _ allowed, ih (get whole) tracks⟩
  | ask question next ih =>
    intro answer
    obtain ⟨phase', allowed, tracks⟩ := tracks answer
    exact ⟨phase', asks _ _ _ _ allowed, ih answer tracks⟩

/-- **In surroundings that mirror each other, an activity takes the same course.** -/
theorem mirrored {activity : Activity interface σ α} (tracks : activity.Tracks go last phase)
    {surroundings : Surroundings interface σ ω} {other : Surroundings interface σ ω'}
    {alike : φ → ω → ω' → Prop} (mirrors : surroundings.Mirrors other go alike) (state : σ)
    {world : ω} {world' : ω'} (same : alike phase world world') :
    let course := surroundings.carry activity (state, world)
    let course' := other.carry activity (state, world')
    course'.1 = course.1 ∧ course'.2.1 = course.2.1 ∧
      other.events activity (state, world') = surroundings.events activity (state, world) ∧
      ∃ phase', last phase' course.1 ∧ alike phase' course.2.2 course'.2.2 := by
  induction activity generalizing phase state world world' with
  | done value => exact ⟨rfl, rfl, rfl, phase, tracks, same⟩
  | step change next ih =>
    obtain ⟨found, between⟩ := mirrors.meanwhile phase state world world' same
    obtain ⟨phase', allowed, later⟩ := tracks (surroundings.meanwhile (state, world)).1
    have after := mirrors.step _ _ _ _ _ _ allowed between
    have rest := ih _ later (change (surroundings.meanwhile (state, world)).1) after
    simp only [Surroundings.carry_step, Surroundings.events, found]
    exact ⟨rest.1, rest.2.1, congrArg _ rest.2.2.1, rest.2.2.2⟩
  | ask question next ih =>
    obtain ⟨phase', allowed, later⟩ := tracks (surroundings.answer question (state, world)).1
    obtain ⟨said, after⟩ := mirrors.answer _ _ _ _ _ _ allowed same
    have rest := ih _ later state after
    simp only [Surroundings.carry_ask, Surroundings.events, said]
    exact ⟨rest.1, rest.2.1, congrArg _ rest.2.2.1, rest.2.2.2⟩

end Activity.Tracks

end ScreenPilot
