import Mathlib.Logic.Relation

/-!
# Moments

What holds at one moment and not at a later one was lost for good in some move between them
(`exists_turn`).
-/

set_option autoImplicit false

namespace ScreenPilot

/-- What holds of something, and not of something that it leads to, was lost for good in one
move. -/
theorem exists_turn {α : Type} {goes : α → α → Prop} {first last : α}
    (leads : Relation.ReflTransGen goes first last) (holds : α → Prop) (before : holds first)
    (after : ¬ holds last) :
    ∃ still lost, Relation.ReflTransGen goes first still ∧ holds still ∧ goes still lost ∧
      ¬ holds lost ∧
      Relation.ReflTransGen (fun earlier later => goes earlier later ∧ ¬ holds later) lost last := by
  induction leads with
  | refl => exact absurd before after
  | @tail between last leads goes ih =>
    by_cases held : holds between
    · exact ⟨between, last, leads, held, goes, after, .refl⟩
    · obtain ⟨still, lost, leads, held, turn, notHeld, leads'⟩ := ih held
      exact ⟨still, lost, leads, held, turn, notHeld, leads'.tail ⟨goes, after⟩⟩

end ScreenPilot
