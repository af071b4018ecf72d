import ScreenPilot.Proofs.Activity.Differences

/-!
# Activities that ask in other words

A rewording puts each question of an interface as a question of another one, and reads the
answer back. One activity rewords another if it asks the same in other words, from states
that are alike, and comes to a related value (`Rewords`). That is kept by one activity after
the other (`Rewords.bind`) and on a part of the state (`Rewords.within`). With equal states
and values, the second activity is the first one in other words (`rewords_iff`).

In surroundings that are alike for as long as what happens in them is alike (`Parallel`),
the two activities take courses that are alike and ask the same in the same order, in other
words (`Rewords.carry_logging`). The activity itself, answered by what the surroundings of
the second one say in other words, is always such a parallel (`carry_reword`,
`carry_logging_reword`).
-/

set_option autoImplicit false

namespace ScreenPilot

/-- How the questions of an interface are put by another one. -/
structure Rewording (interface other : Interface) where
  put : interface.Question → other.Question
  /-- What an answer to the question in other words says about the question. -/
  back : (question : interface.Question) →
    other.Answer (put question) → interface.Answer question

variable {interface other : Interface} {σ σ' τ τ' ω ω' α β γ δ : Type}

namespace Activity

/-- The activity that asks in other words. -/
abbrev reword (rewording : Rewording interface other) (activity : Activity interface σ α) :
    Activity other σ α :=
  activity.widen rewording.put rewording.back

/-- The second activity is the first one in other words, as long as the states are alike,
and it comes to a related value. -/
inductive Rewords (rewording : Rewording interface other) (alike : σ → τ → Prop)
    (related : α → β → Prop) : Activity interface σ α → Activity other τ β → Prop where
  | done {value : α} {value' : β} (agree : related value value') :
      Rewords rewording alike related (.done value) (.done value')
  | step {change : σ → σ} {change' : τ → τ} {next : σ → Activity interface σ α}
      {next' : τ → Activity other τ β}
      (keeps : ∀ state state', alike state state' → alike (change state) (change' state'))
      (rest : ∀ state state', alike state state' →
        Rewords rewording alike related (next state) (next' state')) :
      Rewords rewording alike related (.step change next) (.step change' next')
  | ask {question : interface.Question} {next : interface.Answer question → Activity interface σ α}
      {next' : other.Answer (rewording.put question) → Activity other τ β}
      (rest : ∀ answer,
        Rewords rewording alike related (next (rewording.back question answer)) (next' answer)) :
      Rewords rewording alike related (.ask question next) (.ask (rewording.put question) next')

namespace Rewords

variable {rewording : Rewording interface other} {alike : σ → τ → Prop}
  {related : α → β → Prop} {related' : γ → δ → Prop}

theorem pure {value : α} {value' : β} (agree : related value value') :
    Rewords rewording alike related (Pure.pure value) (Pure.pure value') :=
  .done agree

/-- One activity after the other, in other words. -/
theorem bind {first : Activity interface σ α} {first' : Activity other τ β}
    {next : α → Activity interface σ γ} {next' : β → Activity other τ δ}
    (before : Rewords rewording alike related first first')
    (after : ∀ value value', related value value' →
      Rewords rewording alike related' (next value) (next' value')) :
    Rewords rewording alike related' (first >>= next) (first' >>= next') := by
  show Rewords rewording alike related' (first.bind next) (first'.bind next')
  induction before with
  | done agree => exact after _ _ agree
  | step keeps _ ih => exact .step keeps ih
  | ask _ ih => exact .ask ih

/-- What follows an activity that comes to the same value. -/
theorem after {first : Activity interface σ α} {first' : Activity other τ α}
    {next : α → Activity interface σ γ} {next' : α → Activity other τ δ}
    (before : Rewords rewording alike Eq first first')
    (after : ∀ value, Rewords rewording alike related' (next value) (next' value)) :
    Rewords rewording alike related' (first >>= next) (first' >>= next') :=
  before.bind fun value _ same => same ▸ after value

/-- The same step in the same state. -/
theorem same {change : σ → σ} {next : σ → Activity interface σ α} {next' : σ → Activity other σ β}
    (rest : ∀ state, Rewords rewording Eq related (next state) (next' state)) :
    Rewords rewording Eq related (.step change next) (.step change next') :=
  .step (fun _ _ same => congrArg change same) fun state _ same => same ▸ rest state

/-- What happens on parts of states that are alike. -/
theorem within {whole : σ' → τ' → Prop} {get : σ' → σ} {put : σ → σ' → σ'} {get' : τ' → τ}
    {put' : τ → τ' → τ'} {activity : Activity interface σ α} {activity' : Activity other τ β}
    (rewords : Rewords rewording alike related activity activity')
    (parts : ∀ state state', whole state state' → alike (get state) (get' state'))
    (puts : ∀ part part' state state', alike part part' → whole state state' →
      whole (put part state) (put' part' state')) :
    Rewords rewording whole related (activity.within get put) (activity'.within get' put') := by
  induction rewords with
  | done agree => exact .done agree
  | step keeps _ ih =>
    exact .step (fun state state' same => puts _ _ _ _ (keeps _ _ (parts _ _ same)) same)
      fun state state' same => ih _ _ (parts _ _ same)
  | ask _ ih => exact .ask ih

end Rewords

/-- With equal states and values, the second activity is the first one in other words. -/
theorem rewords_iff {rewording : Rewording interface other} {activity : Activity interface σ α}
    {activity' : Activity other σ α} :
    Rewords rewording Eq Eq activity activity' ↔ activity' = activity.reword rewording := by
  constructor
  · intro rewords
    induction rewords with
    | done agree => exact congrArg Activity.done agree.symm
    | step keeps _ ih =>
      rw [funext fun state => keeps state state rfl, funext fun state => ih state state rfl]
      rfl
    | ask _ ih => exact congrArg _ (funext ih)
  · rintro rfl
    induction activity with
    | done value => exact .done rfl
    | step change next ih => exact .same ih
    | ask question next ih => exact .ask fun answer => ih _

end Activity

namespace Surroundings

/-- As long as states and worlds are alike, others do what keeps them so and the answers
say the same, in other words. -/
structure Parallel (surroundings : Surroundings interface σ ω)
    (other' : Surroundings other τ ω') (rewording : Rewording interface other)
    (alike : σ → τ → Prop) (worlds : ω → ω' → Prop) : Prop where
  meanwhile : ∀ before before', alike before.1 before'.1 → worlds before.2 before'.2 →
    alike (surroundings.meanwhile before).1 (other'.meanwhile before').1 ∧
      worlds (surroundings.meanwhile before).2 (other'.meanwhile before').2
  answer : ∀ question before before', alike before.1 before'.1 → worlds before.2 before'.2 →
    (surroundings.answer question before).1 =
        rewording.back question (other'.answer (rewording.put question) before').1 ∧
      worlds (surroundings.answer question before).2
        (other'.answer (rewording.put question) before').2

variable {surroundings : Surroundings interface σ ω} {other' : Surroundings other τ ω'}
  {rewording : Rewording interface other} {alike : σ → τ → Prop} {worlds : ω → ω' → Prop}

/-- The surroundings that keep a list of what was asked are parallel too. -/
theorem Parallel.logging (parallel : surroundings.Parallel other' rewording alike worlds) :
    surroundings.logging.Parallel other'.logging rewording alike
      fun world world' => worlds world.1 world'.1 ∧ world'.2 = world.2.map rewording.put where
  meanwhile before before' states same := by
    have found := parallel.meanwhile (before.1, before.2.1) (before'.1, before'.2.1) states same.1
    exact ⟨found.1, found.2, same.2⟩
  answer question before before' states same := by
    have found := parallel.answer question (before.1, before.2.1) (before'.1, before'.2.1)
      states same.1
    refine ⟨found.1, found.2, ?_⟩
    show before'.2.2 ++ [rewording.put question] = (before.2.2 ++ [question]).map rewording.put
    rw [same.2, List.map_append, List.map_singleton]

end Surroundings

namespace Activity.Rewords

variable {surroundings : Surroundings interface σ ω} {other' : Surroundings other τ ω'}
  {rewording : Rewording interface other} {alike : σ → τ → Prop} {worlds : ω → ω' → Prop}
  {related : α → β → Prop} {activity : Activity interface σ α} {activity' : Activity other τ β}

/-- **An activity in other words takes a parallel course.** -/
theorem carry (rewords : Rewords rewording alike related activity activity')
    (parallel : surroundings.Parallel other' rewording alike worlds) (before : σ × ω)
    (before' : τ × ω') (states : alike before.1 before'.1) (same : worlds before.2 before'.2) :
    related (surroundings.carry activity before).1 (other'.carry activity' before').1 ∧
      alike (surroundings.carry activity before).2.1 (other'.carry activity' before').2.1 ∧
      worlds (surroundings.carry activity before).2.2 (other'.carry activity' before').2.2 := by
  induction rewords generalizing before before' with
  | done agree => exact ⟨agree, states, same⟩
  | step keeps _ ih =>
    have found := parallel.meanwhile before before' states same
    exact ih _ _ found.1 _ _ (keeps _ _ found.1) found.2
  | @ask question next next' _ ih =>
    obtain ⟨said, same⟩ := parallel.answer question before before' states same
    rw [Surroundings.carry_ask, Surroundings.carry_ask, said]
    exact ih _ _ _ states same

/-- It also asks the same, in other words. -/
theorem carry_logging (rewords : Rewords rewording alike related activity activity')
    (parallel : surroundings.Parallel other' rewording alike worlds) {state : σ} {state' : τ}
    {world : ω} {world' : ω'} (states : alike state state') (same : worlds world world') :
    let course := surroundings.logging.carry activity (state, world, [])
    let course' := other'.logging.carry activity' (state', world', [])
    related course.1 course'.1 ∧ alike course.2.1 course'.2.1 ∧
      worlds course.2.2.1 course'.2.2.1 ∧ course'.2.2.2 = course.2.2.2.map rewording.put :=
  rewords.carry parallel.logging (state, world, []) (state', world', []) states ⟨same, rfl⟩

end Activity.Rewords

namespace Surroundings

/-- The surroundings that answer each question as these answer it in other words. -/
def reworded (surroundings : Surroundings other σ ω) (rewording : Rewording interface other) :
    Surroundings interface σ ω where
  meanwhile := surroundings.meanwhile
  answer question before :=
    let (answer, world) := surroundings.answer (rewording.put question) before
    (rewording.back question answer, world)

theorem parallel_reworded (surroundings : Surroundings other σ ω)
    (rewording : Rewording interface other) :
    (surroundings.reworded rewording).Parallel surroundings rewording Eq Eq where
  meanwhile before before' states same := by
    rw [Prod.ext states same]
    exact ⟨rfl, rfl⟩
  answer question before before' states same := by
    rw [Prod.ext states same]
    exact ⟨rfl, rfl⟩

/-- **The activity that asks in other words takes the same course**, where it is answered
the same. -/
theorem carry_reword (surroundings : Surroundings other σ ω) (rewording : Rewording interface other)
    (activity : Activity interface σ α) (before : σ × ω) :
    surroundings.carry (activity.reword rewording) before =
      (surroundings.reworded rewording).carry activity before := by
  obtain ⟨value, states, worlds⟩ :=
    (Activity.rewords_iff.mpr rfl : activity.Rewords rewording Eq Eq _).carry
      (surroundings.parallel_reworded rewording) before before rfl rfl
  exact Prod.ext value.symm (Prod.ext states.symm worlds.symm)

/-- What was asked in the course of an activity, in other words. -/
def rewordLog (rewording : Rewording interface other)
    (course : α × σ × ω × List interface.Question) : α × σ × ω × List other.Question :=
  (course.1, course.2.1, course.2.2.1, course.2.2.2.map rewording.put)

/-- It also asks the same, in other words. -/
theorem carry_logging_reword (surroundings : Surroundings other σ ω)
    (rewording : Rewording interface other) (activity : Activity interface σ α) (state : σ)
    (world : ω) :
    surroundings.logging.carry (activity.reword rewording) (state, world, []) =
      rewordLog rewording
        ((surroundings.reworded rewording).logging.carry activity (state, world, [])) := by
  obtain ⟨value, states, worlds, asked⟩ :=
    (Activity.rewords_iff.mpr rfl : activity.Rewords rewording Eq Eq _).carry_logging
      (surroundings.parallel_reworded rewording) (rfl : state = state) (rfl : world = world)
  exact Prod.ext value.symm (Prod.ext states.symm (Prod.ext worlds.symm asked))

end Surroundings

end ScreenPilot
