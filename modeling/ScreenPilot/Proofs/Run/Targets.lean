import ScreenPilot.Proofs.Activity.Differences
import ScreenPilot.Proofs.Run.Heeding
import ScreenPilot.Proofs.Run.References

/-!
# What targets mean

A target is looked up in several tables, one after the other, while others may change the
engine. If they leave the records alone, it means what is on record when the look-up begins
(`Target.boxIn`), and to look it up calls nothing and changes nothing (`resolve_yields`).

`Yields` says what an activity comes to in its course, what it calls there in order, and that
it only looks besides. The rules for it follow the activity, so that what an action does is
put together from what its parts do.
-/

set_option autoImplicit false

namespace ScreenPilot

open Activity Engine

/-! ## By what is on record -/

/-- The box that a node was recognized in on its last visit. -/
def Cache.boxOf? (cache : Cache) (name : String) : Option Rect :=
  (cache.latestNode? name).bind fun detail => (cache.reco? detail.reco).bind RecoResult.box

/-- The box that a target means, for an action on a hit. -/
def Target.boxIn (cache : Cache) (hit : RecoResult) : Target → Option Rect
  | .own => hit.box
  | .node name => cache.boxOf? name
  | .fixed rect => some rect

namespace Cache.Agrees

variable {before after later : Cache}

theorem refl (cache : Cache) : cache.Agrees cache := ⟨rfl, rfl, rfl, rfl⟩

theorem trans (agrees : before.Agrees after) (onward : after.Agrees later) :
    before.Agrees later where
  recos := onward.recos.trans agrees.recos
  actions := onward.actions.trans agrees.actions
  nodes := onward.nodes.trans agrees.nodes
  latest := onward.latest.trans agrees.latest

theorem boxOf? (agrees : before.Agrees after) : after.boxOf? = before.boxOf? := by
  funext name
  simp only [Cache.boxOf?, latestNode?, agrees.latest?, agrees.node?, agrees.reco?]

theorem boxIn (agrees : before.Agrees after) : Target.boxIn after = Target.boxIn before := by
  funext hit target
  cases target with
  | own => rfl
  | node name => exact congrFun agrees.boxOf? name
  | fixed rect => rfl

end Cache.Agrees

/-! ## Calls -/

/-- A question and its answer, if it was not left open. -/
abbrev RunCall : Type := (question : Question) × Option (Answer question)

/-- Events are these calls in order, and looks at the engine besides. -/
inductive Makes : List RunEvent → List RunCall → Prop where
  | nil : Makes [] []
  | look {events : List RunEvent} {calls : List RunCall} (found : Engine)
      (rest : Makes events calls) : Makes (.step found found :: events) calls
  | call {events : List RunEvent} {calls : List RunCall} (question : Question)
      (answer : Option (Answer question)) (rest : Makes events calls) :
      Makes (.call question answer :: events) (⟨question, answer⟩ :: calls)

theorem Makes.append {events events' : List RunEvent} {calls calls' : List RunCall}
    (makes : Makes events calls) (then' : Makes events' calls') :
    Makes (events ++ events') (calls ++ calls') := by
  induction makes with
  | nil => exact then'
  | look found _ ih => exact .look found ih
  | call question answer _ ih => exact .call question answer ih

namespace Surroundings

variable {ω α β : Type} {surroundings : Surroundings outside Engine ω}

/-- Others leave the records alone. -/
def KeepsRecords (surroundings : Surroundings outside Engine ω) : Prop :=
  ∀ before : Engine × ω, before.1.cache.Agrees (surroundings.meanwhile before).1.cache

/-- In its course an activity comes to a value, makes these calls and only looks besides. -/
structure Yields (surroundings : Surroundings outside Engine ω) (activity : Acting α)
    (before : Engine × ω) (value : α) (calls : List RunCall) : Prop where
  value : (surroundings.carry activity before).1 = value
  makes : Makes (surroundings.events activity before) calls
  agrees : before.1.cache.Agrees (surroundings.carry activity before).2.1.cache

namespace Yields

variable {before : Engine × ω}

theorem pure (value : α) : surroundings.Yields (pure value) before value [] :=
  ⟨rfl, .nil, .refl _⟩

theorem ask (question : Question) : surroundings.Yields (.ask question .done) before
    (surroundings.answer question before).1
    [⟨question, some (surroundings.answer question before).1⟩] :=
  ⟨rfl, .call _ _ .nil, .refl _⟩

/-- A part of the engine that depends on the records alone is read as it was before. -/
theorem reads (keeps : surroundings.KeepsRecords) (part : Engine → α)
    (same : ∀ engine, before.1.cache.Agrees engine.cache → part engine = part before.1) :
    surroundings.Yields (Activity.reads part) before (part before.1) [] where
  value := same _ (keeps before)
  makes := .look _ .nil
  agrees := keeps before

variable {first : Acting α} {next : α → Acting β} {value : α} {result : β}
  {calls calls' : List RunCall}

/-- One activity after the other makes the calls of both. -/
theorem bind (yields : surroundings.Yields first before value calls)
    (rest : surroundings.Yields (next value) (surroundings.carry first before).2 result calls') :
    surroundings.Yields (first >>= next) before result (calls ++ calls') := by
  rw [← yields.value] at rest
  refine ⟨?_, ?_, ?_⟩
  · rw [carry_bind]
    exact rest.value
  · rw [events_bind]
    exact yields.makes.append rest.makes
  · rw [carry_bind]
    exact yields.agrees.trans rest.agrees

/-- What follows may depend on the records alone. -/
theorem after (yields : surroundings.Yields first before value calls)
    (rest : ∀ middle : Engine × ω, before.1.cache.Agrees middle.1.cache →
      surroundings.Yields (next value) middle result calls') :
    surroundings.Yields (first >>= next) before result (calls ++ calls') :=
  yields.bind (rest _ yields.agrees)

end Yields

/-! ## Looking targets up -/

variable {before : Engine × ω}

theorem boxOfNode_yields (keeps : surroundings.KeepsRecords) (name : String) :
    surroundings.Yields (Actuator.boxOfNode name) before (before.1.cache.boxOf? name) [] := by
  refine Yields.after (.reads keeps _ fun engine agrees => congrFun agrees.latest? name)
    fun second agrees => ?_
  show surroundings.Yields _ second (before.1.cache.boxOf? name) []
  unfold Cache.boxOf? Cache.latestNode?
  cases before.1.cache.latest? name with
  | none => exact .pure none
  | some visit =>
    rw [← agrees.node?, ← agrees.reco?]
    refine Yields.after (.reads keeps _ fun engine agrees => congrFun agrees.node? visit)
      fun third agrees => ?_
    rw [Option.bind_some]
    cases second.1.cache.node? visit with
    | none => exact .pure none
    | some detail =>
      rw [Option.bind_some, ← agrees.reco?]
      refine Yields.after (.reads keeps _ fun engine agrees => congrFun agrees.reco? detail.reco)
        fun fourth agrees => ?_
      cases third.1.cache.reco? detail.reco with
      | none => exact .pure none
      | some result => exact .pure result.box

/-- **Where others leave the records alone, a target means what is on record.** -/
theorem resolve_yields (keeps : surroundings.KeepsRecords) (target : Target) (hit : RecoResult) :
    surroundings.Yields (Actuator.resolve target hit) before
      (target.boxIn before.1.cache hit) [] := by
  cases target with
  | own => exact .pure _
  | node name => exact boxOfNode_yields keeps name
  | fixed rect => exact .pure _

end Surroundings

end ScreenPilot
