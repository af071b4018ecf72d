import ScreenPilot.Proofs.Activity.Surroundings

/-!
# Activities whose questions are carried out by activities

A caller asks, and handlers carry out what it asks. A handler is an activity itself, with
steps and questions of its own, and it may leave a question open; then the caller comes to
no value. An activity that is written without handlers may be one that they carry out
(`Handled`). It ends then as the caller does (`Handled.plays`, `Handled.carry`).

`Plays` tells the caller's own steps from what it calls. What a handler does during a call
is not among the events, though the caller finds the state that the handler leaves.
-/

set_option autoImplicit false

namespace ScreenPilot

/-- How each question is carried out. There is no answer if the question is left open. -/
abbrev Handlers (interface : Interface) (σ : Type) : Type :=
  (question : interface.Question) → Activity interface σ (Option (interface.Answer question))

namespace Activity

/-- What a caller does by itself, and what it calls. -/
inductive Event (interface : Interface) (σ : Type) : Type where
  | step (before after : σ)
  /-- A question was asked and answered, or left open. -/
  | call (question : interface.Question) (answer : Option (interface.Answer question))

variable {interface : Interface} {σ ω α β : Type}

theorem bind_done (activity : Activity interface σ α) : activity.bind .done = activity := by
  induction activity with
  | done value => rfl
  | step change next ih => exact congrArg _ (funext ih)
  | ask question next ih => exact congrArg _ (funext ih)

theorem bind_bind {γ : Type} (first : Activity interface σ α)
    (next : α → Activity interface σ β) (last : β → Activity interface σ γ) :
    (first.bind next).bind last = first.bind fun value => (next value).bind last := by
  induction first with
  | done value => rfl
  | step change rest ih => exact congrArg _ (funext ih)
  | ask question rest ih => exact congrArg _ (funext ih)

instance : LawfulMonad (Activity interface σ) :=
  .mk' (Activity interface σ) bind_done (fun _ _ => rfl) bind_bind

/-- The activity with its questions carried out. -/
def handle (handlers : Handlers interface σ) :
    Activity interface σ α → Activity interface σ (Option α)
  | .done value => .done (some value)
  | .step change next => .step change fun state => (next state).handle handlers
  | .ask question next => handlers question >>= fun
    | none => .done none
    | some answer => (next answer).handle handlers

/-- An activity is what handlers make of a caller; where they leave a question open, it
ends with something open. -/
inductive Handled (handlers : Handlers interface σ) (isOpen : α → Prop) :
    Activity interface σ α → Activity interface σ α → Prop where
  | done (value : α) : Handled handlers isOpen (.done value) (.done value)
  | step {change : σ → σ} {next caller : σ → Activity interface σ α}
      (rest : ∀ state, Handled handlers isOpen (next state) (caller state)) :
      Handled handlers isOpen (.step change next) (.step change caller)
  /-- The question is never left open. -/
  | call {question : interface.Question}
      {carriedOut : Activity interface σ (interface.Answer question)}
      {next caller : interface.Answer question → Activity interface σ α}
      (carries : handlers question = some <$> carriedOut)
      (rest : ∀ answer, Handled handlers isOpen (next answer) (caller answer)) :
      Handled handlers isOpen (carriedOut >>= next) (.ask question caller)
  | wait {question : interface.Question}
      {next : Option (interface.Answer question) → Activity interface σ α}
      {caller : interface.Answer question → Activity interface σ α} {last : α}
      (ends : next none = .done last) (open' : isOpen last)
      (rest : ∀ answer, Handled handlers isOpen (next (some answer)) (caller answer)) :
      Handled handlers isOpen (handlers question >>= next) (.ask question caller)

/-- From a state on, a caller does and calls these things, and comes to a value or to none. -/
inductive Plays (handlers : Handlers interface σ) (setting : Setting σ) :
    Activity interface σ α → σ → List (Event interface σ) → Option α → σ → Prop where
  | done (value : α) (state : σ) : Plays handlers setting (.done value) state [] (some value) state
  | step {change : σ → σ} {next : σ → Activity interface σ α} {state found final : σ}
      {events : List (Event interface σ)} {value : Option α}
      (others : setting.others state found) (own : setting.own found (change found))
      (rest : Plays handlers setting (next found) (change found) events value final) :
      Plays handlers setting (.step change next) state (.step found (change found) :: events)
        value final
  | call {question : interface.Question}
      {next : interface.Answer question → Activity interface σ α} {state middle final : σ}
      {answer : interface.Answer question} {events : List (Event interface σ)} {value : Option α}
      (ends : (handlers question).Ends setting state (some answer) middle)
      (rest : Plays handlers setting (next answer) middle events value final) :
      Plays handlers setting (.ask question next) state (.call question (some answer) :: events)
        value final
  | left {question : interface.Question}
      {next : interface.Answer question → Activity interface σ α} {state final : σ}
      (ends : (handlers question).Ends setting state none final) :
      Plays handlers setting (.ask question next) state [.call question none] none final

theorem plays_done {handlers : Handlers interface σ} {setting : Setting σ} {value : α}
    {state final : σ} {events : List (Event interface σ)} {result : Option α}
    (plays : (Activity.done value).Plays handlers setting state events result final) :
    events = [] ∧ result = some value ∧ final = state := by
  cases plays
  exact ⟨rfl, rfl, rfl⟩

/-- One activity after the other plays what the first plays and then what the second does,
unless the first is left open. -/
theorem plays_bind {handlers : Handlers interface σ} {setting : Setting σ}
    {first : Activity interface σ α} {next : α → Activity interface σ β} {state final : σ}
    {events : List (Event interface σ)} {value : Option β}
    (plays : (first >>= next).Plays handlers setting state events value final) :
    (∃ before after result middle, events = before ++ after ∧
      first.Plays handlers setting state before (some result) middle ∧
      (next result).Plays handlers setting middle after value final) ∨
    value = none ∧ first.Plays handlers setting state events none final := by
  replace plays : (first.bind next).Plays handlers setting state events value final := plays
  induction first generalizing state events with
  | done result => exact .inl ⟨[], events, result, state, rfl, .done _ _, plays⟩
  | step change rest ih =>
    cases plays with
    | step others own after =>
      rcases ih _ after with ⟨before, later, result, middle, rfl, plays, nexts⟩ | ⟨rfl, plays⟩
      · exact .inl ⟨_ :: before, later, result, middle, rfl, .step others own plays, nexts⟩
      · exact .inr ⟨rfl, .step others own plays⟩
  | ask question rest ih =>
    cases plays with
    | call ends after =>
      rcases ih _ after with ⟨before, later, result, middle, rfl, plays, nexts⟩ | ⟨rfl, plays⟩
      · exact .inl ⟨_ :: before, later, result, middle, rfl, .call ends plays, nexts⟩
      · exact .inr ⟨rfl, .call ends plays⟩
    | left ends => exact .inr ⟨rfl, .left ends⟩

/-- The steps that are played are steps of the activity. -/
theorem Steps.plays {kind : σ → σ → Prop} {activity : Activity interface σ α}
    (steps : activity.Steps kind) {handlers : Handlers interface σ} {setting : Setting σ}
    {state final : σ} {events : List (Event interface σ)} {value : Option α}
    (plays : activity.Plays handlers setting state events value final) :
    ∀ before after, .step before after ∈ events → kind before after := by
  induction plays with
  | done => exact fun _ _ member => absurd member List.not_mem_nil
  | @step change next _ found _ _ _ _ _ _ ih =>
    intro before after member
    obtain ⟨isStep, later⟩ := steps found
    rcases List.mem_cons.mp member with same | member
    · cases same
      exact isStep
    · exact ih later before after member
  | call _ _ ih =>
    intro before after member
    exact ih (steps _) before after ((List.mem_cons.mp member).resolve_left nofun)
  | left => exact fun _ _ member => absurd (List.mem_singleton.mp member) nofun

/-- What is left open is called last. -/
theorem Plays.left_open {activity : Activity interface σ α} {handlers : Handlers interface σ}
    {setting : Setting σ} {state final : σ} {events : List (Event interface σ)}
    (plays : activity.Plays handlers setting state events none final) :
    ∃ front question before, events = front ++ [.call question none] ∧
      (handlers question).Ends setting before none final := by
  generalize isOpen : (none : Option α) = value at plays
  induction plays with
  | done => cases isOpen
  | step _ _ _ ih =>
    obtain ⟨front, question, before, rfl, ends⟩ := ih isOpen
    exact ⟨_ :: front, question, before, rfl, ends⟩
  | call _ _ ih =>
    obtain ⟨front, question, before, rfl, ends⟩ := ih isOpen
    exact ⟨_ :: front, question, before, rfl, ends⟩
  | left ends => exact ⟨[], _, _, rfl, ends⟩

namespace Handled

variable {handlers : Handlers interface σ} {isOpen : α → Prop} {isOpen' : β → Prop}

/-- A question that the handlers ask in turn. -/
theorem asked {question : interface.Question}
    {next caller : interface.Answer question → Activity interface σ α}
    (passes : handlers question = some <$> .ask question .done)
    (rest : ∀ answer, Handled handlers isOpen (next answer) (caller answer)) :
    Handled handlers isOpen (.ask question next) (.ask question caller) :=
  .call passes rest

/-- One activity after the other: what is open stays open. -/
theorem bind {first caller : Activity interface σ α} {next caller' : α → Activity interface σ β}
    (handled : Handled handlers isOpen first caller)
    (stays : ∀ value, isOpen value → ∃ last, next value = .done last ∧ isOpen' last)
    (after : ∀ value, Handled handlers isOpen' (next value) (caller' value)) :
    Handled handlers isOpen' (first >>= next) (caller >>= caller') := by
  induction handled with
  | done value => exact after value
  | step _ ih => exact .step ih
  | call carries _ ih =>
    rw [bind_assoc]
    exact .call carries ih
  | wait ends open' _ ih =>
    obtain ⟨last, ends', open'⟩ := stays _ open'
    rw [bind_assoc]
    refine .wait ?_ open' ih
    rw [ends]
    exact ends'

/-- **An activity that is handled ends as its caller does**, unless something is left
open. -/
theorem plays {activity caller : Activity interface σ α} {setting : Setting σ}
    (handled : Handled handlers isOpen activity caller) {state final : σ} {value : α}
    (ends : activity.Ends setting state value final) :
    ∃ events came, caller.Plays handlers setting state events came final ∧
      (came = some value ∨ came = none ∧ isOpen value) := by
  induction handled generalizing state with
  | done value =>
    cases ends
    exact ⟨[], _, .done _ _, .inl rfl⟩
  | step _ ih =>
    cases ends with
    | step others own rest =>
      obtain ⟨events, came, plays, same⟩ := ih _ rest
      exact ⟨_, came, .step others own plays, same⟩
  | call carries _ ih =>
    obtain ⟨answer, middle, before, after⟩ := ends_bind.mp ends
    obtain ⟨events, came, plays, same⟩ := ih answer after
    refine ⟨_, came, .call ?_ plays, same⟩
    rw [carries]
    exact ends_bind.mpr ⟨answer, middle, before, .done _ _⟩
  | wait open_ends open' _ ih =>
    obtain ⟨answer, middle, before, after⟩ := ends_bind.mp ends
    cases answer with
    | none =>
      rw [open_ends] at after
      cases after
      exact ⟨_, none, .left before, .inr ⟨rfl, open'⟩⟩
    | some answer =>
      obtain ⟨events, came, plays, same⟩ := ih answer after
      exact ⟨_, came, .call before plays, same⟩

/-- The course of an activity that is handled is that of its caller, unless something is
left open. -/
theorem carry {activity caller : Activity interface σ α}
    (handled : Handled handlers isOpen activity caller)
    (surroundings : Surroundings interface σ ω) (before : σ × ω) :
    (surroundings.carry (caller.handle handlers) before).2 =
        (surroundings.carry activity before).2 ∧
      ((surroundings.carry (caller.handle handlers) before).1 =
          some (surroundings.carry activity before).1 ∨
        (surroundings.carry (caller.handle handlers) before).1 = none ∧
          isOpen (surroundings.carry activity before).1) := by
  induction handled generalizing before with
  | done value => exact ⟨rfl, .inl rfl⟩
  | step _ ih => exact ih _ _
  | call carries _ ih =>
    simp only [handle, carries, Surroundings.carry_bind, map_eq_pure_bind]
    exact ih _ _
  | wait open_ends open' _ ih =>
    simp only [handle, Surroundings.carry_bind]
    split
    · rename_i left
      rw [left, open_ends]
      exact ⟨rfl, .inr ⟨rfl, open'⟩⟩
    · rename_i answer answered
      rw [answered]
      exact ih answer _

end Handled

end Activity

end ScreenPilot
