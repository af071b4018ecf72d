import ScreenPilot.Proofs.Activity.Handlers
import ScreenPilot.Proofs.Activity.Rewordings

/-!
# Activities that leave tracks

What may happen next in an activity is its next step, in whatever state it finds, or an answer to
its question (`Happens`). To track an activity is to say which of this leads from a phase into
which one, and in which phase the activity may end (`Tracks`). An answer may lead into another
phase, so a phase can hold what was answered so far; that is the difference to `Obeys`. Whatever
happens in a tracked activity leads to a rest that is tracked (`Tracks.happens`).
-/

set_option autoImplicit false

namespace ScreenPilot

namespace Activity

variable {interface other : Interface} {σ α β φ ψ : Type}

/-- Something may happen next in an activity, and a rest is left. -/
inductive Happens :
    Activity interface σ α → Event interface σ → Activity interface σ α → Prop where
  | step (change : σ → σ) (next : σ → Activity interface σ α) (found : σ) :
      Happens (.step change next) (.step found (change found)) (next found)
  | ask (question : interface.Question) (next : interface.Answer question → Activity interface σ α)
      (answer : interface.Answer question) :
      Happens (.ask question next) (.call question (some answer)) (next answer)

theorem Happens.reads (part : σ → β) (next : β → Activity interface σ α) (found : σ) :
    (Activity.reads part >>= next).Happens (.step found found) (next (part found)) :=
  .step _ _ found

/-- From a phase on, whatever happens in an activity leads into some phase, as it is allowed to,
and the activity ends as it is allowed to. -/
def Tracks (go : φ → Event interface σ → φ → Prop) (last : φ → α → Prop) :
    Activity interface σ α → φ → Prop
  | .done value, phase => last phase value
  | .step change next, phase =>
    ∀ found, ∃ phase', go phase (.step found (change found)) phase' ∧
      (next found).Tracks go last phase'
  | .ask question next, phase =>
    ∀ answer, ∃ phase', go phase (.call question (some answer)) phase' ∧
      (next answer).Tracks go last phase'

namespace Tracks

variable {go : φ → Event interface σ → φ → Prop} {last : φ → α → Prop} {phase : φ}

/-- **What happens in a tracked activity is allowed, and the rest is tracked.** -/
theorem happens {activity rest : Activity interface σ α} {event : Event interface σ}
    (tracks : activity.Tracks go last phase) (happens : activity.Happens event rest) :
    ∃ phase', go phase event phase' ∧ rest.Tracks go last phase' := by
  cases happens with
  | step change next found => exact tracks found
  | ask question next answer => exact tracks answer

theorem bind {first : Activity interface σ β} {next : β → Activity interface σ α}
    {middle : φ → β → Prop} (tracks : first.Tracks go middle phase)
    (after : ∀ value phase', middle phase' value → (next value).Tracks go last phase') :
    (first >>= next).Tracks go last phase := by
  show (first.bind next).Tracks go last phase
  induction first generalizing phase with
  | done value => exact after value phase tracks
  | step change rest ih =>
    intro found
    obtain ⟨phase', allowed, tracks⟩ := tracks found
    exact ⟨phase', allowed, ih found tracks⟩
  | ask question rest ih =>
    intro answer
    obtain ⟨phase', allowed, tracks⟩ := tracks answer
    exact ⟨phase', allowed, ih answer tracks⟩

theorem reads {part : σ → β} {next : β → Activity interface σ α}
    (after : ∀ found, ∃ phase', go phase (.step found found) phase' ∧
      (next (part found)).Tracks go last phase') :
    (Activity.reads part >>= next).Tracks go last phase := after

/-- An activity in other words leaves the tracks that it leaves by itself, as part of others. -/
theorem reword {rewording : Rewording interface other} {activity : Activity interface σ α}
    {go' : ψ → Event other σ → ψ → Prop} (tracks : activity.Tracks go last phase)
    (embed : φ → ψ)
    (steps : ∀ phase found after phase', go phase (.step found after) phase' →
      go' (embed phase) (.step found after) (embed phase'))
    (asks : ∀ phase question answer phase',
      go phase (.call question (some (rewording.back question answer))) phase' →
        go' (embed phase) (.call (rewording.put question) (some answer)) (embed phase')) :
    (activity.reword rewording).Tracks go'
      (fun stage value => ∃ phase', stage = embed phase' ∧ last phase' value) (embed phase) := by
  induction activity generalizing phase with
  | done value => exact ⟨phase, rfl, tracks⟩
  | step change next ih =>
    intro found
    obtain ⟨phase', allowed, tracks⟩ := tracks found
    exact ⟨embed phase', steps _ _ _ _ allowed, ih found tracks⟩
  | ask question next ih =>
    intro answer
    obtain ⟨phase', allowed, tracks⟩ := tracks (rewording.back question answer)
    exact ⟨embed phase', asks _ _ _ _ allowed, ih _ tracks⟩

end Tracks

end Activity

end ScreenPilot
