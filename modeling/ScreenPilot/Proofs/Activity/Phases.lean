import ScreenPilot.Proofs.Activity.Among

/-!
# Activities in phases

An activity that shares its state moves by one step or one answer at a time
(`Moves`). To speak of many activities that move in turn, one gives each of them
a phase. `Obeys` says of the rest of an activity which steps it may take in its
phase, into which phase a step leads, and in which phase it may end. A move
leads to a rest that obeys again (`Obeys.moves`). `Abides` says in addition which
questions may be asked in a phase.
-/

set_option autoImplicit false

namespace ScreenPilot

namespace Activity

variable {interface : Interface} {σ α β φ : Type}

/-- One move of an activity: its next step, or an answer to its question. -/
inductive Moves : Activity interface σ α → σ → Activity interface σ α → σ → Prop where
  | step (change : σ → σ) (next : σ → Activity interface σ α) (state : σ) :
      Moves (.step change next) state (next state) (change state)
  | ask (question : interface.Question) (next : interface.Answer question → Activity interface σ α)
      (answer : interface.Answer question) (state : σ) :
      Moves (.ask question next) state (next answer) state

theorem Moves.step_eq {change : σ → σ} {next : σ → Activity interface σ α}
    {rest : Activity interface σ α} {before after : σ}
    (moves : (Activity.step change next).Moves before rest after) : after = change before := by
  cases moves with
  | step => rfl

/-- A move of an activity is one of it and what follows. -/
theorem Moves.bind {first rest : Activity interface σ α} {before after : σ}
    (moves : first.Moves before rest after) (next : α → Activity interface σ β) :
    (first >>= next).Moves before (rest >>= next) after := by
  cases moves with
  | step change rest => exact .step _ _ _
  | ask question rest answer => exact .ask _ _ answer _

/-- A move of an activity whose steps are all of one kind is of that kind. -/
theorem Steps.moves {kind : σ → σ → Prop} {activity rest : Activity interface σ α}
    {before after : σ} (steps : activity.Steps kind) (look : ∀ state, kind state state)
    (moves : activity.Moves before rest after) : kind before after ∧ rest.Steps kind := by
  cases moves with
  | step change next => exact steps before
  | ask question next answer => exact ⟨look before, steps answer⟩

/-- From a phase on, an activity goes from phase to phase as it is allowed to,
and ends as it is allowed to. To wait for an answer is to leave the state as it
is. -/
def Obeys (go : φ → σ → σ → φ → Prop) (last : φ → α → Prop) :
    Activity interface σ α → φ → Prop
  | .done value, phase => last phase value
  | .step change next, phase =>
    ∀ state, ∃ phase', go phase state (change state) phase' ∧ (next state).Obeys go last phase'
  | .ask _ next, phase =>
    (∀ state, go phase state state phase) ∧ ∀ answer, (next answer).Obeys go last phase

variable {go : φ → σ → σ → φ → Prop} {last : φ → α → Prop} {phase : φ}

/-- **A move of an activity that obeys is allowed, and the rest obeys.** -/
theorem Obeys.moves {activity rest : Activity interface σ α} {before after : σ}
    (obeys : activity.Obeys go last phase) (moves : activity.Moves before rest after) :
    ∃ phase', go phase before after phase' ∧ rest.Obeys go last phase' := by
  cases moves with
  | step change next => exact obeys before
  | ask question next answer => exact ⟨phase, obeys.1 before, obeys.2 answer⟩

theorem Obeys.bind {first : Activity interface σ β} {next : β → Activity interface σ α}
    {middle : φ → β → Prop} (obeys : first.Obeys go middle phase)
    (after : ∀ value phase', middle phase' value → (next value).Obeys go last phase') :
    (first >>= next).Obeys go last phase := by
  show (first.bind next).Obeys go last phase
  induction first generalizing phase with
  | done value => exact after value phase obeys
  | step change rest ih =>
    intro state
    obtain ⟨phase', allowed, obeys⟩ := obeys state
    exact ⟨phase', allowed, ih state obeys⟩
  | ask question rest ih => exact ⟨obeys.1, fun answer => ih answer (obeys.2 answer)⟩

/-- What is read may lead into another phase. -/
theorem Obeys.reads {part : σ → β} {next : β → Activity interface σ α}
    (after : ∀ state, ∃ phase', go phase state state phase' ∧
      (next (part state)).Obeys go last phase') :
    (reads part >>= next).Obeys go last phase := after

theorem Obeys.modify {change : σ → σ} {next : Unit → Activity interface σ α}
    (after : ∀ state, ∃ phase', go phase state (change state) phase' ∧
      (next ()).Obeys go last phase') :
    (modify change >>= next).Obeys go last phase := after

theorem Obeys.transact_bind {act : σ → β × σ} {next : β → Activity interface σ α}
    (after : ∀ state, ∃ phase', go phase state (act state).2 phase' ∧
      (next (act state).1).Obeys go last phase') :
    (Activity.transact act >>= next).Obeys go last phase := after

theorem Obeys.transact {act : σ → α × σ}
    (after : ∀ state, ∃ phase', go phase state (act state).2 phase' ∧
      last phase' (act state).1) :
    (transact act : Activity interface σ α).Obeys go last phase := after

/-- An activity whose steps are all of a kind that a phase allows stays in the
phase. -/
theorem Steps.obeys {kind : σ → σ → Prop} {activity : Activity interface σ α}
    (steps : activity.Steps kind)
    (stays : ∀ before after, kind before after → go phase before after phase)
    (waits : ∀ state, go phase state state phase) :
    activity.Obeys go (fun phase' _ => phase' = phase) phase := by
  induction activity with
  | done => rfl
  | step change next ih =>
    intro state
    exact ⟨phase, stays _ _ (steps state).1, ih state (steps state).2⟩
  | ask question next ih => exact ⟨waits, fun answer => ih answer (steps answer)⟩

/-- After steps that a phase allows, the phase is the same. -/
theorem Steps.obeys_bind {kind : σ → σ → Prop} {first : Activity interface σ β}
    {next : β → Activity interface σ α} (steps : first.Steps kind)
    (stays : ∀ before after, kind before after → go phase before after phase)
    (waits : ∀ state, go phase state state phase)
    (after : ∀ value, (next value).Obeys go last phase) :
    (first >>= next).Obeys go last phase :=
  (steps.obeys stays waits).bind fun value _ same => same ▸ after value

/-- What an activity does in phases it does in phases of which these are a part. -/
theorem Obeys.embed {ψ : Type} {go' : ψ → σ → σ → ψ → Prop} {activity : Activity interface σ α}
    (obeys : activity.Obeys go last phase) (embed : φ → ψ)
    (lifted : ∀ phase before after phase', go phase before after phase' →
      go' (embed phase) before after (embed phase')) :
    activity.Obeys go' (fun stage value => ∃ phase', stage = embed phase' ∧ last phase' value)
      (embed phase) := by
  induction activity generalizing phase with
  | done value => exact ⟨phase, rfl, obeys⟩
  | step change next ih =>
    intro state
    obtain ⟨phase', allowed, obeys⟩ := obeys state
    exact ⟨embed phase', lifted _ _ _ _ allowed, ih state obeys⟩
  | ask question next ih =>
    exact ⟨fun state => lifted _ _ _ _ (obeys.1 state), fun answer => ih answer (obeys.2 answer)⟩

/-- What an activity does to its own state it does to a state of which this is a part. -/
theorem Obeys.within {τ ψ : Type} {go' : ψ → τ → τ → ψ → Prop} {activity : Activity interface σ α}
    (obeys : activity.Obeys go last phase) {get : τ → σ} {put : σ → τ → τ}
    (same : ∀ whole, put (get whole) whole = whole) (embed : φ → ψ)
    (lifted : ∀ phase whole part phase', go phase (get whole) part phase' →
      go' (embed phase) whole (put part whole) (embed phase')) :
    (activity.within get put).Obeys go'
      (fun stage value => ∃ phase', stage = embed phase' ∧ last phase' value) (embed phase) := by
  induction activity generalizing phase with
  | done value => exact ⟨phase, rfl, obeys⟩
  | step change next ih =>
    intro whole
    obtain ⟨phase', allowed, obeys⟩ := obeys (get whole)
    exact ⟨embed phase', lifted _ _ _ _ allowed, ih (get whole) obeys⟩
  | ask question next ih =>
    refine ⟨fun whole => ?_, fun answer => ih answer (obeys.2 answer)⟩
    have waits := lifted _ whole _ _ (obeys.1 (get whole))
    rwa [same] at waits

/-! ## Questions in phases -/

/-- From a phase on, an activity goes from phase to phase, asks in each of them what it
may ask there, and ends as it is allowed to. -/
def Abides (go : φ → σ → σ → φ → Prop) (may : φ → interface.Question → Prop)
    (last : φ → α → Prop) : Activity interface σ α → φ → Prop
  | .done value, phase => last phase value
  | .step change next, phase =>
    ∀ state, ∃ phase', go phase state (change state) phase' ∧
      (next state).Abides go may last phase'
  | .ask question next, phase =>
    may phase question ∧ ∀ answer, (next answer).Abides go may last phase

variable {may : φ → interface.Question → Prop}

/-- A move of an activity that abides leads to a rest that abides, by an allowed step or
by an answer. -/
theorem Abides.moves {activity rest : Activity interface σ α} {before after : σ}
    (abides : activity.Abides go may last phase) (moves : activity.Moves before rest after) :
    (∃ phase', go phase before after phase' ∧ rest.Abides go may last phase') ∨
      (∃ question, may phase question) ∧ after = before ∧ rest.Abides go may last phase := by
  cases moves with
  | step change next => exact .inl (abides before)
  | ask question next answer => exact .inr ⟨⟨question, abides.1⟩, rfl, abides.2 answer⟩

/-- What is read may lead into another phase. -/
theorem Abides.reads {part : σ → β} {next : β → Activity interface σ α}
    (after : ∀ state, ∃ phase', go phase state state phase' ∧
      (next (part state)).Abides go may last phase') :
    (reads part >>= next).Abides go may last phase := after

theorem Abides.bind {first : Activity interface σ β} {next : β → Activity interface σ α}
    {middle : φ → β → Prop} (abides : first.Abides go may middle phase)
    (after : ∀ value phase', middle phase' value → (next value).Abides go may last phase') :
    (first >>= next).Abides go may last phase := by
  show (first.bind next).Abides go may last phase
  induction first generalizing phase with
  | done value => exact after value phase abides
  | step change rest ih =>
    intro state
    obtain ⟨phase', allowed, abides⟩ := abides state
    exact ⟨phase', allowed, ih state abides⟩
  | ask question rest ih => exact ⟨abides.1, fun answer => ih answer (abides.2 answer)⟩

/-- An activity whose steps are all of a kind that a phase allows stays in the phase, if
it may ask anything there. -/
theorem Steps.abides {kind : σ → σ → Prop} {activity : Activity interface σ α}
    (steps : activity.Steps kind)
    (stays : ∀ before after, kind before after → go phase before after phase)
    (asks : ∀ question, may phase question) :
    activity.Abides go may (fun phase' _ => phase' = phase) phase := by
  induction activity with
  | done => rfl
  | step change next ih =>
    intro state
    exact ⟨phase, stays _ _ (steps state).1, ih state (steps state).2⟩
  | ask question next ih => exact ⟨asks question, fun answer => ih answer (steps answer)⟩

/-! ## Ends -/

/-- Without others, an activity moves to each of its ends, whatever follows it. -/
theorem Ends.induct {setting : Setting σ} {activity : Activity interface σ α} {state final : σ}
    {value : α} (ends : activity.Ends setting state value final)
    (reach : Activity interface σ α → σ → Prop) (start : reach activity state)
    (alone : ∀ before after, setting.others before after → before = after)
    (move : ∀ activity rest before after, activity.Moves before rest after →
      (before = after ∨ setting.own before after) → reach activity before → reach rest after) :
    reach (.done value) final := by
  induction ends with
  | done => exact start
  | step others own _ ih =>
    obtain rfl := alone _ _ others
    exact ih (move _ _ _ _ (.step _ _ _) (.inr own) start)
  | ask answer _ ih => exact ih (move _ _ _ _ (.ask _ _ answer _) (.inl rfl) start)

end Activity

end ScreenPilot
