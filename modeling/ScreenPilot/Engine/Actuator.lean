import ScreenPilot.Engine.Basic

/-!
# Actuators

The stock actuator carries out the action of a node on the device, and waits
until captures of the screen stay the same. Another actuator may take its
place.

An action needs its targets first; if one is missing, no input is sent. What
comes of an action is counted once, unless the node does nothing or the device
crashes.
-/

set_option autoImplicit false

namespace ScreenPilot

/-- What carries out actions. -/
inductive Actuator where
  | stock (controller resource : Handle)
  | replaced (actuator : Handle)
deriving DecidableEq

namespace Actuator

open Engine

/-! ## Targets -/

/-- The box that a node was last recognized in. -/
def boxOfNode (name : String) : Acting (Option Rect) := do
  match ← Activity.reads fun engine => engine.cache.latest? name with
  | none => pure none
  | some visit =>
    match ← Activity.reads fun engine => engine.cache.node? visit with
    | none => pure none
    | some detail =>
      match ← Activity.reads fun engine => engine.cache.reco? detail.reco with
      | none => pure none
      | some result => pure result.box

/-- The box that a target means, for an action on a hit. -/
def resolve (target : Target) (hit : RecoResult) : Acting (Option Rect) :=
  match target with
  | .own => pure hit.box
  | .fixed rect => pure (some rect)
  | .node name => boxOfNode name

/-- The point that a target means. -/
def point (target : Target) (hit : RecoResult) : Acting (Option Point) := do
  return (← resolve target hit).map Rect.center

/-! ## Actions -/

/-- Sends an input at a point, if there is one. -/
def sendAt (controller : Handle) (input : Point → Input) : Option Point → Acting (Reply Bool)
  | none => pure (.returned false)
  | some point => send controller (input point)

/-- Sends keys in their order, failed ones included. -/
def sendKeys (controller : Handle) (success : Bool) : List Int32 → Acting (Reply Bool)
  | [] => pure (.returned success)
  | code :: codes => do
    match ← send controller (.key code) with
    | .crashed => pure .crashed
    | .returned pressed => sendKeys controller (pressed && success) codes

/-- Performs the action that the resource has under a name. -/
def performCustom (controller resource : Handle) (name : String) (param : Json)
    (target : Target) (hit : RecoResult) : Acting Bool := do
  let plugIn : Option Handle ← .ask (Question.actionPlugIn resource name) .done
  match plugIn with
  | none => pure false
  | some plugIn =>
    let box ← resolve target hit
    let reply : Reply Bool ←
      .ask (Question.perform plugIn controller param box hit.detail) .done
    pure (reply.getD false)

/-- Carries out an action without counting it. A long press is a touch that stays in place,
which is what a controller does that has no press of its own; others are not covered. -/
def dispatch (controller resource : Handle) (hit : RecoResult) :
    ActionParam → Acting (Reply Bool)
  | .doNothing => pure (.returned true)
  | .click target => do sendAt controller .click (← point target hit)
  | .longPress target duration => do
    sendAt controller (fun point => .swipe point point duration) (← point target hit)
  | .swipe start finish duration => do
    let start ← point start hit
    let finish ← point finish hit
    match start with
    | none => pure (.returned false)
    | some start => sendAt controller (fun finish => .swipe start finish duration) finish
  | .keys codes => sendKeys controller true codes
  | .inputText text => send controller (.text text)
  | .startApp package => send controller (.startApp package)
  | .stopApp package => send controller (.stopApp package)
  | .custom name param target => do
    return .returned (← performCustom controller resource name param target hit)

/-- Whether what comes of an action is counted. -/
def isCounted : ActionParam → Bool
  | .doNothing => false
  | _ => true

/-- Carries out an action with the stock actuator. -/
def actStock (controller resource : Handle) (hit : RecoResult) (action : ActionParam) :
    Acting (Reply Bool) := do
  match ← dispatch controller resource hit action with
  | .crashed => pure .crashed
  | .returned success =>
    if isCounted action then countOp success
    pure (.returned success)

/-- Carries out the action of a node on a hit. -/
def act (actuator : Actuator) (hit : RecoResult) (node : Node) : Acting (Reply Bool) :=
  match actuator with
  | .stock controller resource => actStock controller resource hit node.action
  | .replaced actuator => .ask (Question.act actuator hit node) .done

/-! ## Waiting for a still screen -/

/-- What came of waiting for a still screen. -/
inductive Waited where
  /-- The wait ended; whether it is good to go on. -/
  | ended (good : Bool)
  | crashed
  /-- The wait was followed for as many rounds as asked for and goes on. -/
  | unfinished
deriving DecidableEq

/-- Captures until a frame has stayed the same for long enough. The last frame
that differed from the one before it was `last`, captured at `since`; the wait
began at `started`. -/
def watch (signal : StopSignal) (controller : Handle) (wait : WaitFreezes) (started : Nat) :
    Nat → Frame → Nat → Acting Waited
  | 0, _, _ => pure .unfinished
  | patience + 1, last, since => do
    if ¬ (← sleep signal (nanoseconds wait.rateLimit)) then pure (.ended false)
    else if nanoseconds wait.timeout ≤ (← now) - started then pure (.ended true)
    else
      match ← capture controller with
      | .crashed => pure .crashed
      | .returned none => pure (.ended false)
      | .returned (some frame) =>
        if frame ≠ last then
          watch signal controller wait started patience frame (← now)
        else if nanoseconds wait.time ≤ (← now) - since then pure (.ended true)
        else watch signal controller wait started patience last since

/-- Waits for a still screen with the stock actuator, for at most `patience`
rounds. -/
def awaitStillStock (signal : StopSignal) (patience : Nat) (controller : Handle)
    (wait : WaitFreezes) : Acting Waited := do
  if ¬ wait.isEnabled then pure (.ended true)
  else
    let started ← now
    match ← capture controller with
    | .crashed => pure .crashed
    | .returned none => pure (.ended false)
    | .returned (some frame) =>
      watch signal controller wait started patience frame (← now)

/-- Waits for a still screen. -/
def awaitStill (actuator : Actuator) (signal : StopSignal) (patience : Nat)
    (wait : WaitFreezes) (node : Node) : Acting Waited :=
  match actuator with
  | .stock controller _ => awaitStillStock signal patience controller wait
  | .replaced actuator => do
    let reply : Reply Bool ← .ask (Question.awaitStill actuator wait node) .done
    match reply with
    | .returned good => pure (.ended good)
    | .crashed => pure .crashed

end Actuator

end ScreenPilot
