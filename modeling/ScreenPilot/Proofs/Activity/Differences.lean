import ScreenPilot.Proofs.Activity.Handlers

/-!
# Differences that an activity overlooks

An activity overlooks a difference between answers if it goes on in the same way after
either (`Overlooks`). In two surroundings that answer alike but for such differences, it
takes the same course (`Overlooks.carry`); and so does a caller whose handlers come to
answers that differ so (`Overlooks.carry_handle`, `Overlooks.calls`).
-/

set_option autoImplicit false

namespace ScreenPilot

namespace Surroundings

variable {interface : Interface} {σ ω α : Type}

theorem carry_step (surroundings : Surroundings interface σ ω) (change : σ → σ)
    (next : σ → Activity interface σ α) (before : σ × ω) :
    surroundings.carry (.step change next) before =
      surroundings.carry (next (surroundings.meanwhile before).1)
        (change (surroundings.meanwhile before).1, (surroundings.meanwhile before).2) := rfl

theorem carry_ask (surroundings : Surroundings interface σ ω) (question : interface.Question)
    (next : interface.Answer question → Activity interface σ α) (before : σ × ω) :
    surroundings.carry (.ask question next) before =
      surroundings.carry (next (surroundings.answer question before).1)
        (before.1, (surroundings.answer question before).2) := rfl

theorem carry_reads (surroundings : Surroundings interface σ ω) (part : σ → α)
    (before : σ × ω) :
    surroundings.carry (Activity.reads part) before =
      (part (surroundings.meanwhile before).1, surroundings.meanwhile before) := rfl

theorem carry_modify (surroundings : Surroundings interface σ ω) (change : σ → σ)
    (before : σ × ω) :
    surroundings.carry (Activity.modify change) before =
      ((), change (surroundings.meanwhile before).1, (surroundings.meanwhile before).2) := rfl

/-- What neither others nor answers change of the world is the same in the end. -/
theorem carry_keeps {γ : Type} {surroundings : Surroundings interface σ ω} (view : ω → γ)
    (meanwhile : ∀ before, view (surroundings.meanwhile before).2 = view before.2)
    (answer : ∀ question before, view (surroundings.answer question before).2 = view before.2)
    (activity : Activity interface σ α) (before : σ × ω) :
    view (surroundings.carry activity before).2.2 = view before.2 := by
  induction activity generalizing before with
  | done value => rfl
  | step change next ih =>
    rw [carry_step, ih]
    exact meanwhile before
  | ask question next ih =>
    rw [carry_ask, ih]
    exact answer question before

/-- Other surroundings do and answer the same, but for some differences between answers. -/
structure Resembles (surroundings other : Surroundings interface σ ω)
    (differ : (question : interface.Question) →
      interface.Answer question → interface.Answer question → Prop) : Prop where
  meanwhile : other.meanwhile = surroundings.meanwhile
  answer : ∀ question before,
    differ question (surroundings.answer question before).1 (other.answer question before).1
  world : ∀ question before,
    (other.answer question before).2 = (surroundings.answer question before).2

/-- The surroundings, with a list of all that was asked in them. -/
def logging (surroundings : Surroundings interface σ ω) :
    Surroundings interface σ (ω × List interface.Question) where
  meanwhile before :=
    let (found, world) := surroundings.meanwhile (before.1, before.2.1)
    (found, world, before.2.2)
  answer question before :=
    let (answer, world) := surroundings.answer question (before.1, before.2.1)
    (answer, world, before.2.2 ++ [question])

theorem Resembles.logging {surroundings other : Surroundings interface σ ω}
    {differ : (question : interface.Question) →
      interface.Answer question → interface.Answer question → Prop}
    (resembles : surroundings.Resembles other differ) :
    surroundings.logging.Resembles other.logging differ where
  meanwhile := by
    funext before
    simp only [Surroundings.logging, resembles.meanwhile]
  answer question before := resembles.answer question (before.1, before.2.1)
  world question before := by
    simp only [Surroundings.logging, resembles.world]

/-- What happens in the course of an activity. -/
def events (surroundings : Surroundings interface σ ω) :
    Activity interface σ α → σ × ω → List (Activity.Event interface σ)
  | .done _, _ => []
  | .step change next, before =>
    let (found, world) := surroundings.meanwhile before
    .step found (change found) :: surroundings.events (next found) (change found, world)
  | .ask question next, before =>
    let (answer, world) := surroundings.answer question before
    .call question (some answer) :: surroundings.events (next answer) (before.1, world)

theorem events_bind {β : Type} (surroundings : Surroundings interface σ ω)
    (first : Activity interface σ α) (next : α → Activity interface σ β) (before : σ × ω) :
    surroundings.events (first >>= next) before =
      surroundings.events first before ++
        surroundings.events (next (surroundings.carry first before).1)
          (surroundings.carry first before).2 := by
  show surroundings.events (first.bind next) before = _
  induction first generalizing before with
  | done value => rfl
  | step change rest ih => exact congrArg _ (ih _ _)
  | ask question rest ih => exact congrArg _ (ih _ _)

/-- What a caller calls in its course. -/
def calls (surroundings : Surroundings interface σ ω) (handlers : Handlers interface σ) :
    Activity interface σ α → σ × ω → List interface.Question
  | .done _, _ => []
  | .step change next, before =>
    let (found, world) := surroundings.meanwhile before
    surroundings.calls handlers (next found) (change found, world)
  | .ask question next, before =>
    question :: match surroundings.carry (handlers question) before with
      | (none, _) => []
      | (some answer, after) => surroundings.calls handlers (next answer) after

end Surroundings

namespace Activity

variable {interface : Interface} {σ ω α β : Type}
  {differ : (question : interface.Question) →
    interface.Answer question → interface.Answer question → Prop}

/-- An activity goes on in the same way after answers that differ so. -/
def Overlooks (differ : (question : interface.Question) →
    interface.Answer question → interface.Answer question → Prop) :
    Activity interface σ α → Prop
  | .done _ => True
  | .step _ next => ∀ state, (next state).Overlooks differ
  | .ask question next => ∀ answer, (next answer).Overlooks differ ∧
    ∀ other, differ question answer other → next other = next answer

namespace Overlooks

theorem pure (value : α) : (pure value : Activity interface σ α).Overlooks differ := trivial

theorem bind {first : Activity interface σ α} {next : α → Activity interface σ β}
    (before : first.Overlooks differ) (after : ∀ value, (next value).Overlooks differ) :
    (first >>= next).Overlooks differ := by
  show (first.bind next).Overlooks differ
  induction first with
  | done value => exact after value
  | step change rest ih => exact fun state => ih state (before state)
  | ask question rest ih =>
    intro answer
    refine ⟨ih answer (before answer).1, fun other differs => ?_⟩
    exact congrArg (Activity.bind · next) ((before answer).2 other differs)

/-- A question whose answers do not differ. -/
theorem ask {question : interface.Question}
    {next : interface.Answer question → Activity interface σ α}
    (same : ∀ answer other, differ question answer other → other = answer)
    (after : ∀ answer, (next answer).Overlooks differ) :
    (Activity.ask question next).Overlooks differ :=
  fun answer => ⟨after answer, fun other differs => congrArg next (same answer other differs)⟩

/-- **An activity takes the same course in surroundings whose differences it overlooks.** -/
theorem carry {activity : Activity interface σ α} (overlooks : activity.Overlooks differ)
    {surroundings other : Surroundings interface σ ω}
    (resembles : surroundings.Resembles other differ) (before : σ × ω) :
    other.carry activity before = surroundings.carry activity before := by
  induction activity generalizing before with
  | done value => rfl
  | step change next ih =>
    rw [Surroundings.carry_step, Surroundings.carry_step, resembles.meanwhile]
    exact ih _ (overlooks _) _
  | ask question next ih =>
    rw [Surroundings.carry_ask, Surroundings.carry_ask, resembles.world,
      (overlooks _).2 _ (resembles.answer question before)]
    exact ih _ (overlooks _).1 _

end Overlooks

end Activity

/-- In other surroundings, other handlers come to the same, but for some differences
between answers. -/
def Handlers.Resemble {interface : Interface} {σ ω : Type} (handlers : Handlers interface σ)
    (surroundings : Surroundings interface σ ω) (handlers' : Handlers interface σ)
    (other : Surroundings interface σ ω)
    (differ : (question : interface.Question) →
      interface.Answer question → interface.Answer question → Prop) : Prop :=
  ∀ question before,
    Option.Rel (differ question) (surroundings.carry (handlers question) before).1
      (other.carry (handlers' question) before).1 ∧
    (other.carry (handlers' question) before).2 =
      (surroundings.carry (handlers question) before).2

namespace Handlers.Resemble

variable {interface : Interface} {σ ω : Type} {handlers handlers' handlers'' : Handlers interface σ}
  {surroundings other another : Surroundings interface σ ω}
  {differ : (question : interface.Question) →
    interface.Answer question → interface.Answer question → Prop}

theorem trans (resemble : Handlers.Resemble handlers surroundings handlers' other differ)
    (again : Handlers.Resemble handlers' other handlers'' another differ)
    (both : ∀ question first second third,
      differ question first second → differ question second third → differ question first third) :
    Handlers.Resemble handlers surroundings handlers'' another differ := by
  intro question before
  obtain ⟨alike, same⟩ := resemble question before
  obtain ⟨alike', same'⟩ := again question before
  refine ⟨?_, same'.trans same⟩
  generalize (surroundings.carry (handlers question) before).1 = first at alike
  generalize (other.carry (handlers' question) before).1 = second at alike alike'
  generalize (another.carry (handlers'' question) before).1 = third at alike'
  cases alike with
  | none =>
    cases alike'
    exact .none
  | some differs =>
    cases alike' with
    | some differs' => exact .some (both _ _ _ _ differs differs')

end Handlers.Resemble

namespace Activity.Overlooks

variable {interface : Interface} {σ ω α : Type}
  {differ : (question : interface.Question) →
    interface.Answer question → interface.Answer question → Prop}
  {caller : Activity interface σ α} {surroundings other : Surroundings interface σ ω}
  {handlers handlers' : Handlers interface σ}

/-- A caller takes the same course with handlers whose differences it overlooks. -/
theorem carry_handle (overlooks : caller.Overlooks differ)
    (meanwhile : other.meanwhile = surroundings.meanwhile)
    (resemble : handlers.Resemble surroundings handlers' other differ) (before : σ × ω) :
    other.carry (caller.handle handlers') before =
      surroundings.carry (caller.handle handlers) before := by
  induction caller generalizing before with
  | done value => rfl
  | step change next ih =>
    rw [handle, Surroundings.carry_step, handle, Surroundings.carry_step, meanwhile]
    exact ih _ (overlooks _) _
  | ask question next ih =>
    obtain ⟨alike, same⟩ := resemble question before
    rw [handle, Surroundings.carry_bind, handle, Surroundings.carry_bind, same]
    generalize (surroundings.carry (handlers question) before).1 = answer at alike
    generalize (other.carry (handlers' question) before).1 = other' at alike
    cases alike with
    | none => rfl
    | some differs =>
      dsimp only
      rw [(overlooks _).2 _ differs]
      exact ih _ (overlooks _).1 _

/-- It also calls the same. -/
theorem calls (overlooks : caller.Overlooks differ)
    (meanwhile : other.meanwhile = surroundings.meanwhile)
    (resemble : handlers.Resemble surroundings handlers' other differ) (before : σ × ω) :
    other.calls handlers' caller before = surroundings.calls handlers caller before := by
  induction caller generalizing before with
  | done value => rfl
  | step change next ih =>
    rw [Surroundings.calls, Surroundings.calls, meanwhile]
    exact ih _ (overlooks _) _
  | ask question next ih =>
    obtain ⟨alike, same⟩ := resemble question before
    rw [Surroundings.calls, Surroundings.calls]
    generalize surroundings.carry (handlers question) before = course at alike same
    generalize other.carry (handlers' question) before = course' at alike same
    obtain ⟨answer, after⟩ := course
    obtain ⟨answer', after'⟩ := course'
    cases same
    cases alike with
    | none => rfl
    | some differs =>
      dsimp only
      rw [(overlooks _).2 _ differs, ih _ (overlooks _).1 _]

end Activity.Overlooks

end ScreenPilot
