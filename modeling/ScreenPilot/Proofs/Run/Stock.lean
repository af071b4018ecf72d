import ScreenPilot.Engine.Actuator
import ScreenPilot.Engine.Recognizer

/-!
# What stock ports are made of

The stock recognizer and the stock actuator look at the engine, count what they do, and ask
the clock, the device and the resource. So a property of activities that these have, and that
one activity after the other keeps, is one of the stock ports (`Kept.findStock`,
`Kept.actStock`, `Kept.awaitStillStock`).
-/

set_option autoImplicit false

namespace ScreenPilot

open Activity Engine

/-- A property of activities is kept by one after the other, and looking and counting have it
and the questions that stock ports ask. -/
structure Kept (kept : (α : Type) → Acting α → Prop) : Prop where
  done : ∀ {α : Type} (value : α), kept α (.done value)
  bind : ∀ {α β : Type} {first : Acting α} {next : α → Acting β}, kept α first →
    (∀ value, kept β (next value)) → kept β (first >>= next)
  reads : ∀ {α : Type} (part : Engine → α), kept α (Activity.reads part)
  count : ∀ change : Stats → Stats,
    kept Unit (Activity.modify fun engine => { engine with stats := change engine.stats })
  now : kept Nat now
  rest : ∀ poll duration, kept Unit (.ask (Question.rest poll duration) .done)
  frame : ∀ controller, kept (Reply (Option Frame)) (.ask (Question.capture controller) .done)
  send : ∀ controller input, kept (Reply Bool) (send controller input)
  recognitionPlugIn : ∀ resource name,
    kept (Option Handle) (.ask (Question.recognitionPlugIn resource name) .done)
  actionPlugIn : ∀ resource name,
    kept (Option Handle) (.ask (Question.actionPlugIn resource name) .done)
  analyze : ∀ plugIn frame param, kept (Option Recognition)
    ((Reply.getD · none) <$> .ask (Question.analyze plugIn frame param) .done)
  perform : ∀ plugIn controller param box detail, kept Bool
    ((Reply.getD · false) <$> .ask (Question.perform plugIn controller param box detail) .done)

namespace Kept

variable {kept : (α : Type) → Acting α → Prop} (has : Kept kept)
include has

theorem pure {α : Type} (value : α) : kept α (Pure.pure value) := has.done value

theorem map {α β : Type} {activity : Acting α} (view : α → β) (holds : kept α activity) :
    kept β (view <$> activity) :=
  has.bind holds fun value => has.done (view value)

theorem isStopped (signal : StopSignal) : kept Bool (isStopped signal) := has.reads _

theorem sleep (signal : StopSignal) (duration : Nat) : kept Bool (sleep signal duration) := by
  refine has.bind (has.isStopped signal) fun stopped => ?_
  split
  · exact has.pure _
  · split
    · exact has.pure _
    · exact has.bind (has.rest _ _) fun _ => has.bind (has.isStopped signal) fun _ => has.pure _

theorem capture (controller : Handle) :
    kept (Reply (Option Frame)) (Engine.capture controller) := by
  refine has.bind (has.frame controller) fun reply => ?_
  split
  · exact has.pure _
  · exact has.bind (has.count _) fun _ => has.pure _

/-! ## Stock ports -/

theorem findStock (resource : Handle) (frame : Frame) (param : RecoParam) :
    kept (Option Recognition) (Recognizer.findStock resource frame param) := by
  unfold Recognizer.findStock
  split
  · exact has.pure _
  · refine has.bind (has.recognitionPlugIn _ _) fun plugIn => ?_
    split
    · exact has.pure _
    · exact has.analyze _ _ _

theorem resolve (target : Target) (hit : RecoResult) :
    kept (Option Rect) (Actuator.resolve target hit) := by
  cases target with
  | own => exact has.pure _
  | fixed rect => exact has.pure _
  | node name =>
    refine has.bind (has.reads _) fun latest => ?_
    split
    · exact has.pure _
    · refine has.bind (has.reads _) fun detail => ?_
      split
      · exact has.pure _
      · refine has.bind (has.reads _) fun result => ?_
        split <;> exact has.pure _

theorem point (target : Target) (hit : RecoResult) :
    kept (Option Point) (Actuator.point target hit) :=
  has.bind (has.resolve target hit) fun _ => has.pure _

theorem sendAt (controller : Handle) (input : Point → Input) (point : Option Point) :
    kept (Reply Bool) (Actuator.sendAt controller input point) := by
  cases point with
  | none => exact has.pure _
  | some point => exact has.send _ _

theorem sendKeys (controller : Handle) (codes : List Int32) (success : Bool) :
    kept (Reply Bool) (Actuator.sendKeys controller success codes) := by
  induction codes generalizing success with
  | nil => exact has.pure _
  | cons code codes ih =>
    refine has.bind (has.send _ _) fun reply => ?_
    split
    · exact has.pure _
    · exact ih _

theorem performCustom (controller resource : Handle) (name : String) (param : Json)
    (target : Target) (hit : RecoResult) :
    kept Bool (Actuator.performCustom controller resource name param target hit) := by
  refine has.bind (has.actionPlugIn _ _) fun plugIn => ?_
  split
  · exact has.pure _
  · exact has.bind (has.resolve target hit) fun box => has.perform _ _ _ _ _

theorem dispatch (controller resource : Handle) (hit : RecoResult) (action : ActionParam) :
    kept (Reply Bool) (Actuator.dispatch controller resource hit action) := by
  cases action with
  | doNothing => exact has.pure _
  | click target | longPress target duration =>
    exact has.bind (has.point target hit) fun _ => has.sendAt _ _ _
  | swipe start finish duration =>
    refine has.bind (has.point start hit) fun start => has.bind (has.point finish hit) fun _ => ?_
    split
    · exact has.pure _
    · exact has.sendAt _ _ _
  | keys codes => exact has.sendKeys controller codes true
  | inputText text => exact has.send _ _
  | startApp package => exact has.send _ _
  | stopApp package => exact has.send _ _
  | custom name param target =>
    exact has.bind (has.performCustom controller resource name param target hit) fun _ =>
      has.pure _

theorem actStock (controller resource : Handle) (hit : RecoResult) (action : ActionParam) :
    kept (Reply Bool) (Actuator.actStock controller resource hit action) := by
  refine has.bind (has.dispatch controller resource hit action) fun reply => ?_
  split
  · exact has.pure _
  · show kept (Reply Bool) (ite _ _ _)
    split
    · exact has.bind (has.count _) fun _ => has.pure _
    · exact has.pure _

theorem watch (signal : StopSignal) (controller : Handle) (wait : WaitFreezes)
    (started patience : Nat) (last : Frame) (since : Nat) :
    kept Actuator.Waited (Actuator.watch signal controller wait started patience last since) := by
  induction patience generalizing last since with
  | zero => exact has.pure _
  | succ patience ih =>
    refine has.bind (has.sleep _ _) fun goesOn => ?_
    split
    · exact has.pure _
    · refine has.bind has.now fun time => ?_
      split
      · exact has.pure _
      · refine has.bind (has.capture controller) fun reply => ?_
        split
        · exact has.pure _
        · exact has.pure _
        · split
          · exact has.bind has.now fun _ => ih _ _
          · refine has.bind has.now fun time => ?_
            split
            · exact has.pure _
            · exact ih _ _

theorem awaitStillStock (signal : StopSignal) (patience : Nat) (controller : Handle)
    (wait : WaitFreezes) :
    kept Actuator.Waited (Actuator.awaitStillStock signal patience controller wait) := by
  unfold Actuator.awaitStillStock
  split
  · exact has.pure _
  · refine has.bind has.now fun started => has.bind (has.capture controller) fun reply => ?_
    split
    · exact has.pure _
    · exact has.pure _
    · exact has.bind has.now fun _ => has.watch _ _ _ _ _ _ _

end Kept

end ScreenPilot
