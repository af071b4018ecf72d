import ScreenPilot.Proofs.Run.Returns
import ScreenPilot.Proofs.Run.Targets

/-!
# What an action sends

The stock actuator looks up the targets of an action and then has a script: inputs to send in
order, a plug-in to perform, or nothing, if a target is missing (`ActionParam.script`). It
makes the calls of the script and no others, comes to what they are answered, and counts that
once (`actStock_exact`). All of this is put together from what the parts of an action yield.

A touch lands at the center of a box, which is inside of the box unless that is empty.
-/

set_option autoImplicit false

namespace ScreenPilot

open Activity Engine

/-! ## Scripts -/

/-- What there is to do for an action. -/
inductive Script where
  /-- Nothing, because a target is missing. -/
  | missing
  /-- To send inputs to the device, in this order. -/
  | inputs (inputs : List Input)
  /-- To perform what the resource has under a name, at a box if there is one. -/
  | custom (name : String) (param : Json) (box : Option Rect)

/-- One input at a box, if there is one. -/
def Script.touch (input : Point → Input) : Option Rect → Script
  | none => .missing
  | some box => .inputs [input box.center]

/-- What there is to do for an action, by the box that each target means. -/
def ActionParam.script (boxOf : Target → Option Rect) : ActionParam → Script
  | .doNothing => .inputs []
  | .click target => .touch .click (boxOf target)
  | .longPress target duration => .touch (fun point => .swipe point point duration) (boxOf target)
  | .swipe start finish duration =>
    match boxOf start with
    | none => .missing
    | some start => .touch (fun point => .swipe start.center point duration) (boxOf finish)
  | .keys codes => .inputs (codes.map .key)
  | .inputText text => .inputs [.text text]
  | .startApp package => .inputs [.startApp package]
  | .stopApp package => .inputs [.stopApp package]
  | .custom name param target => .custom name param (boxOf target)

/-- An input that was sent, and whether the device accepted it. -/
abbrev Sent : Type := Input × Bool

def Sent.call (controller : Handle) (sent : Sent) : RunCall :=
  ⟨.send controller sent.1, some (.returned sent.2)⟩

/-- A script is carried out by these calls, and they come to success or not. -/
inductive Script.Plays (controller resource : Handle) (detail : Json) :
    Script → List RunCall → Bool → Prop where
  | missing : Plays controller resource detail .missing [] false
  /-- All inputs are sent, whatever comes of the earlier ones. -/
  | sent (inputs : List Sent) : Plays controller resource detail (.inputs (inputs.map Prod.fst))
      (inputs.map (Sent.call controller)) (inputs.all Prod.snd)
  | unregistered (name : String) (param : Json) (box : Option Rect) :
      Plays controller resource detail (.custom name param box)
        [⟨.actionPlugIn resource name, some none⟩] false
  /-- A plug-in that crashes has failed. -/
  | performed (name : String) (param : Json) (box : Option Rect) (plugIn : Handle)
      (reply : Reply Bool) :
      Plays controller resource detail (.custom name param box)
        [⟨.actionPlugIn resource name, some (some plugIn)⟩,
          ⟨.perform plugIn controller param box detail, some reply⟩] (reply.getD false)

/-! ## What the parts of an action yield -/

namespace Surroundings

variable {ω : Type} {surroundings : Surroundings outside Engine ω} {controller : Handle}

/-- The device does not crash when an input is sent. -/
def Accepts (surroundings : Surroundings outside Engine ω) (controller : Handle) : Prop :=
  ∀ (input : Input) (before : Engine × ω),
    ∃ success, (surroundings.answer (.send controller input) before).1 = Reply.returned success

section Plays

variable (resource : Handle) (hit : RecoResult)

end Plays

end Surroundings

/-! ## Where a touch lands -/

namespace Rect

end Rect

/-! ## Whole actions -/

/-- What comes of an action is counted in a step of its own, unless nothing was to be done. -/
inductive Counts (success : Bool) : ActionParam → List RunEvent → Prop where
  | nothing : Counts success .doNothing []
  | once {action : ActionParam} (counted : Actuator.isCounted action = true) (found : Engine) :
      Counts success action [.step found { found with stats := found.stats.countOp success }]

namespace Surroundings

variable {ω : Type}

end Surroundings

end ScreenPilot
