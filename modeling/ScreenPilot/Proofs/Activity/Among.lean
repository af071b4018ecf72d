import ScreenPilot.Activity

/-!
# Activities among others

An activity shares its state: before each of its steps others may have changed
it, and a question may be answered in any way the interface allows. `Ends` says
how an activity may end under these conditions, and `Ensures` what holds
however it ends. The rules below follow the activity, one for each of its
constructors and one for one activity after the other, so that a statement on a
composed activity is one on its parts.

`Steps` says that each single step of an activity is of one kind, whatever the
state it finds. What all steps of a kind preserve, and others preserve too, an
activity with only such steps preserves.
-/

set_option autoImplicit false

namespace ScreenPilot

/-- What may become of a state while an activity shares it. -/
structure Setting (σ : Type) where
  /-- What others may make of the state before a step of the activity. -/
  others : σ → σ → Prop
  /-- The steps of the activity itself that are considered. -/
  own : σ → σ → Prop

namespace Setting

variable {σ : Type}

/-- Others may do anything at any time. -/
def anything : Setting σ := ⟨fun _ _ => True, fun _ _ => True⟩

/-- There are no others. -/
def alone : Setting σ := ⟨Eq, fun _ _ => True⟩

end Setting

namespace Activity

variable {interface : Interface} {σ τ α β : Type}

/-- From a state on, an activity may end with a value in a state. -/
inductive Ends (setting : Setting σ) : Activity interface σ α → σ → α → σ → Prop where
  | done (value : α) (state : σ) : Ends setting (.done value) state value state
  | step {change : σ → σ} {next : σ → Activity interface σ α} {state found final : σ} {value : α}
      (others : setting.others state found) (own : setting.own found (change found))
      (rest : Ends setting (next found) (change found) value final) :
      Ends setting (.step change next) state value final
  | ask {question : interface.Question}
      {next : interface.Answer question → Activity interface σ α} {state final : σ} {value : α}
      (answer : interface.Answer question) (rest : Ends setting (next answer) state value final) :
      Ends setting (.ask question next) state value final

/-- However an activity ends, something holds of its value and of the state. -/
def Ensures (setting : Setting σ) (activity : Activity interface σ α) (state : σ)
    (holds : α → σ → Prop) : Prop :=
  ∀ value final, activity.Ends setting state value final → holds value final

variable {setting : Setting σ}

/-! ## One rule for each constructor -/

@[simp] theorem ensures_done {value : α} {state : σ} {holds : α → σ → Prop} :
    Ensures setting (.done value : Activity interface σ α) state holds ↔ holds value state := by
  constructor
  · intro ensures
    exact ensures value state (.done value state)
  · intro held _ _ ends
    cases ends
    exact held

@[simp] theorem ensures_step {change : σ → σ} {next : σ → Activity interface σ α} {state : σ}
    {holds : α → σ → Prop} :
    Ensures setting (.step change next) state holds ↔
      ∀ found, setting.others state found → setting.own found (change found) →
        Ensures setting (next found) (change found) holds := by
  constructor
  · intro ensures found others own value final ends
    exact ensures value final (.step others own ends)
  · intro each _ _ ends
    cases ends with
    | step others own rest => exact each _ others own _ _ rest

@[simp] theorem ensures_ask {question : interface.Question}
    {next : interface.Answer question → Activity interface σ α} {state : σ}
    {holds : α → σ → Prop} :
    Ensures setting (.ask question next) state holds ↔
      ∀ answer, Ensures setting (next answer) state holds := by
  constructor
  · intro ensures answer value final ends
    exact ensures value final (.ask answer ends)
  · intro each _ _ ends
    cases ends with
    | ask answer rest => exact each answer _ _ rest

/-! ## Composed activities -/

theorem Ensures.imp {activity : Activity interface σ α} {state : σ} {holds more : α → σ → Prop}
    (ensures : Ensures setting activity state holds)
    (enough : ∀ value final, holds value final → more value final) :
    Ensures setting activity state more :=
  fun value final ends => enough value final (ensures value final ends)

theorem Ensures.and {activity : Activity interface σ α} {state : σ} {holds also : α → σ → Prop}
    (left : Ensures setting activity state holds) (right : Ensures setting activity state also) :
    Ensures setting activity state fun value final => holds value final ∧ also value final :=
  fun value final ends => ⟨left value final ends, right value final ends⟩

/-- In a wider setting an activity may end as it may in a narrower one. -/
theorem Ends.imp {wider : Setting σ} {activity : Activity interface σ α} {state final : σ}
    {value : α} (ends : activity.Ends setting state value final)
    (others : ∀ before after, setting.others before after → wider.others before after)
    (own : ∀ before after, setting.own before after → wider.own before after) :
    activity.Ends wider state value final := by
  induction ends with
  | done value state => exact .done value state
  | step moved taken _ ih => exact .step (others _ _ moved) (own _ _ taken) ih
  | ask answer _ ih => exact .ask answer ih

/-- One activity after the other ends by way of an end of the first. -/
theorem ends_bind {first : Activity interface σ α} {next : α → Activity interface σ β}
    {state final : σ} {result : β} :
    Ends setting (first >>= next) state result final ↔
      ∃ value middle, Ends setting first state value middle ∧
        Ends setting (next value) middle result final := by
  show Ends setting (first.bind next) state result final ↔ _
  constructor
  · intro ends
    induction first generalizing state with
    | done value => exact ⟨value, state, .done value state, ends⟩
    | step change rest ih =>
      cases ends with
      | step others own after =>
        obtain ⟨value, middle, before, after⟩ := ih _ after
        exact ⟨value, middle, .step others own before, after⟩
    | ask question rest ih =>
      cases ends with
      | ask answer after =>
        obtain ⟨value, middle, before, after⟩ := ih _ after
        exact ⟨value, middle, .ask answer before, after⟩
  · rintro ⟨value, middle, before, after⟩
    induction before with
    | done => exact after
    | step others own _ ih => exact .step others own (ih after)
    | ask answer _ ih => exact .ask answer (ih after)

/-- **One activity after the other ensures what the second ensures from
wherever the first may end.** -/
theorem ensures_bind {first : Activity interface σ α} {next : α → Activity interface σ β}
    {state : σ} {holds : β → σ → Prop} :
    Ensures setting (first >>= next) state holds ↔
      Ensures setting first state fun value middle =>
        Ensures setting (next value) middle holds := by
  constructor
  · intro ensures value middle before result final after
    exact ensures result final (ends_bind.mpr ⟨value, middle, before, after⟩)
  · intro ensures result final ends
    obtain ⟨value, middle, before, after⟩ := ends_bind.mp ends
    exact ensures value middle before result final after

/-- What the second activity ensures from everywhere, both ensure together. -/
theorem Ensures.after {first : Activity interface σ α} {next : α → Activity interface σ β}
    {state : σ} {holds : β → σ → Prop}
    (everywhere : ∀ value middle, Ensures setting (next value) middle holds) :
    Ensures setting (first >>= next) state holds :=
  ensures_bind.mpr fun value middle _ => everywhere value middle

@[simp] theorem ensures_pure {value : α} {state : σ} {holds : α → σ → Prop} :
    Ensures setting (pure value : Activity interface σ α) state holds ↔ holds value state :=
  ensures_done

theorem ensures_map {activity : Activity interface σ α} {view : α → β} {state : σ}
    {holds : β → σ → Prop} :
    Ensures setting (view <$> activity) state holds ↔
      Ensures setting activity state fun value final => holds (view value) final := by
  show Ensures setting (activity >>= fun value => pure (view value)) state holds ↔ _
  simp only [ensures_bind, ensures_pure]

@[simp] theorem ensures_reads {part : σ → α} {state : σ} {holds : α → σ → Prop} :
    Ensures setting (reads part : Activity interface σ α) state holds ↔
      ∀ found, setting.others state found → setting.own found found →
        holds (part found) found := by
  simp only [reads, ensures_step, ensures_done, id]

@[simp] theorem ensures_modify {change : σ → σ} {state : σ} {holds : Unit → σ → Prop} :
    Ensures setting (modify change : Activity interface σ Unit) state holds ↔
      ∀ found, setting.others state found → setting.own found (change found) →
        holds () (change found) := by
  simp only [modify, ensures_step, ensures_done]

@[simp] theorem ensures_transact {act : σ → α × σ} {state : σ} {holds : α → σ → Prop} :
    Ensures setting (transact act : Activity interface σ α) state holds ↔
      ∀ found, setting.others state found → setting.own found (act found).2 →
        holds (act found).1 (act found).2 := by
  simp only [transact, ensures_step, ensures_done]

/-! ## Kinds of steps -/

/-- Every step of an activity is of a kind, whatever state it finds. -/
def Steps (kind : σ → σ → Prop) : Activity interface σ α → Prop
  | .done _ => True
  | .step change next => ∀ state, kind state (change state) ∧ (next state).Steps kind
  | .ask _ next => ∀ answer, (next answer).Steps kind

variable {kind : σ → σ → Prop}

theorem Steps.pure (value : α) : (pure value : Activity interface σ α).Steps kind := trivial

theorem Steps.bind {first : Activity interface σ α} {next : α → Activity interface σ β}
    (before : first.Steps kind) (after : ∀ value, (next value).Steps kind) :
    (first >>= next).Steps kind := by
  show (first.bind next).Steps kind
  induction first with
  | done value => exact after value
  | step change rest ih => exact fun state => ⟨(before state).1, ih state (before state).2⟩
  | ask question rest ih => exact fun answer => ih answer (before answer)

theorem Steps.map {activity : Activity interface σ α} (view : α → β)
    (steps : activity.Steps kind) : (view <$> activity).Steps kind :=
  steps.bind fun value => .pure (view value)

theorem Steps.reads {part : σ → α} (look : ∀ state, kind state state) :
    (reads part : Activity interface σ α).Steps kind :=
  fun state => ⟨look state, trivial⟩

theorem Steps.modify {change : σ → σ} (changes : ∀ state, kind state (change state)) :
    (modify change : Activity interface σ Unit).Steps kind :=
  fun state => ⟨changes state, trivial⟩

theorem Steps.transact {act : σ → α × σ} (acts : ∀ state, kind state (act state).2) :
    (transact act : Activity interface σ α).Steps kind :=
  fun state => ⟨acts state, trivial⟩

theorem Steps.imp {wider : σ → σ → Prop} {activity : Activity interface σ α}
    (steps : activity.Steps kind) (wide : ∀ before after, kind before after → wider before after) :
    activity.Steps wider := by
  induction activity with
  | done => trivial
  | step change next ih =>
    intro state
    exact ⟨wide _ _ (steps state).1, ih state (steps state).2⟩
  | ask question next ih => exact fun answer => ih answer (steps answer)

/-- Steps on a part of a state are steps on the whole. -/
theorem Steps.within {activity : Activity interface σ α} (steps : activity.Steps kind)
    {get : τ → σ} {put : σ → τ → τ} {wider : τ → τ → Prop}
    (lifted : ∀ whole part, kind (get whole) part → wider whole (put part whole)) :
    (activity.within get put).Steps wider := by
  induction activity with
  | done => trivial
  | step change next ih =>
    intro whole
    exact ⟨lifted whole _ (steps (get whole)).1, ih _ (steps (get whole)).2⟩
  | ask question next ih => exact fun answer => ih answer (steps answer)

/-- Another interface for the questions leaves the steps as they are. -/
theorem Steps.widen {wider : Interface} {embed : interface.Question → wider.Question}
    {back : (question : interface.Question) →
      wider.Answer (embed question) → interface.Answer question}
    {activity : Activity interface σ α} (steps : activity.Steps kind) :
    (activity.widen embed back).Steps kind := by
  induction activity with
  | done => trivial
  | step change next ih => exact fun state => ⟨(steps state).1, ih state (steps state).2⟩
  | ask question next ih => exact fun answer => ih _ (steps _)

/-- **What others preserve and all steps of a kind preserve, an activity with
only such steps preserves.** -/
theorem Steps.ensures {activity : Activity interface σ α} (steps : activity.Steps kind)
    (invariant : σ → Prop)
    (others : ∀ before after, setting.others before after → invariant before → invariant after)
    (own : ∀ before after, kind before after → setting.own before after →
      invariant before → invariant after)
    {state : σ} (holds : invariant state) :
    Ensures setting activity state fun _ final => invariant final := by
  induction activity generalizing state with
  | done => exact ensures_done.mpr holds
  | step change next ih =>
    refine ensures_step.mpr fun found between allowed => ?_
    have kept := own _ _ (steps found).1 allowed (others _ _ between holds)
    exact ih found (steps found).2 kept
  | ask question next ih => exact ensures_ask.mpr fun answer => ih answer (steps answer) holds

/-- Without others, an activity that only looks leaves the state as it was. -/
theorem Steps.unchanged {activity : Activity interface σ α} (steps : activity.Steps Eq)
    (state : σ) : Ensures .alone activity state fun _ final => final = state := by
  refine steps.ensures (· = state) ?_ ?_ rfl
  · rintro before _ rfl held
    exact held
  · rintro before _ rfl - held
    exact held

end Activity

end ScreenPilot
