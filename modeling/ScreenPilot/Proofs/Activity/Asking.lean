import ScreenPilot.Proofs.Activity.Handlers

/-!
# What activities ask and yield

Whatever is answered and whatever state is found, an activity may come to questions and to
values of one kind only (`Asks`). Then nothing else is called in what it plays, and it plays
to no other value.
-/

set_option autoImplicit false

namespace ScreenPilot.Activity

variable {interface : Interface} {σ α β : Type} {allowed : interface.Question → Prop}
  {yields : α → Prop} {yields' : β → Prop}

/-- All questions and all values that an activity can come to are allowed. -/
inductive Asks (allowed : interface.Question → Prop) (yields : α → Prop) :
    Activity interface σ α → Prop where
  | done {value : α} (may : yields value) : Asks allowed yields (.done value)
  | step {change : σ → σ} {next : σ → Activity interface σ α}
      (rest : ∀ state, Asks allowed yields (next state)) : Asks allowed yields (.step change next)
  | ask {question : interface.Question}
      {next : interface.Answer question → Activity interface σ α} (may : allowed question)
      (rest : ∀ answer, Asks allowed yields (next answer)) :
      Asks allowed yields (.ask question next)

namespace Asks

theorem bind {first : Activity interface σ α} {next : α → Activity interface σ β}
    (asks : Asks allowed yields first)
    (after : ∀ value, yields value → Asks allowed yields' (next value)) :
    Asks allowed yields' (first >>= next) := by
  induction asks with
  | done may => exact after _ may
  | step _ ih => exact .step ih
  | ask may _ ih => exact .ask may ih

/-- What is called and what is come to is allowed. -/
theorem plays {activity : Activity interface σ α} (asks : Asks allowed yields activity)
    {handlers : Handlers interface σ} {setting : Setting σ} {state final : σ}
    {events : List (Event interface σ)} {value : Option α}
    (plays : activity.Plays handlers setting state events value final) :
    (∀ question answer, .call question answer ∈ events → allowed question) ∧
      ∀ result, value = some result → yields result := by
  induction plays with
  | done =>
    cases asks with
    | done may => exact ⟨fun _ _ member => absurd member List.not_mem_nil, by rintro _ ⟨⟩; exact may⟩
  | step _ _ _ ih =>
    cases asks with
    | step rest =>
      obtain ⟨calls, comes⟩ := ih (rest _)
      refine ⟨fun question answer member => calls question answer ?_, comes⟩
      exact (List.mem_cons.mp member).resolve_left nofun
  | call _ _ ih =>
    cases asks with
    | ask may rest =>
      obtain ⟨calls, comes⟩ := ih (rest _)
      refine ⟨fun question answer member => ?_, comes⟩
      rcases List.mem_cons.mp member with same | later
      · cases same
        exact may
      · exact calls question answer later
  | left =>
    cases asks with
    | ask may _ =>
      refine ⟨fun question answer member => ?_, nofun⟩
      cases List.mem_singleton.mp member
      exact may

end Asks

end ScreenPilot.Activity
