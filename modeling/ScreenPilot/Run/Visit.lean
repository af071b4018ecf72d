import ScreenPilot.Engine.Actuator
import ScreenPilot.Engine.Recognizer
import ScreenPilot.Run.Outcome

/-!
# Visits of nodes

The steps a visit of a node is made of: one recognition attempt, the action
with the rests around it, and the record of the visit. Every attempt and every
action has an identity, is announced before and after, and is in the cache
before its end is announced. A collaborator that crashes costs one attempt.
-/

set_option autoImplicit false

namespace ScreenPilot

/-- What a run needs from the one who starts it. -/
structure RunContext where
  /-- The graph of the whole run. -/
  graph : Graph
  signal : StopSignal
  controller : Handle
  recognizer : Recognizer
  actuator : Actuator
  /-- How many rounds of any one wait are followed. -/
  patience : Nat

namespace RunContext

open Engine

/-- The task the run belongs to. -/
def task (context : RunContext) : TaskId := context.signal.task

/-! ## Recognition -/

/-- The event of a step of a node. -/
def event (context : RunContext) (node : Node) (kind : StepKind) (phase : StepPhase)
    (visit : NodeId) (reco : RecoId) (action : ActionId) : Notification :=
  .ofNode { kind, phase, task := context.task, node := visit, reco, action,
            name := node.name, focus := node.focus }

/-- The record of an attempt. -/
def recoResult (id : RecoId) (node : Node) (found : Option Recognition) : RecoResult where
  id := id
  name := node.name
  algorithm := node.recognition.kind
  box := found.map Recognition.box
  detail := (found.map Recognition.detail).getD .null

/-- Attempts once to recognize a node in a frame. -/
def recognize (context : RunContext) (frame : Frame) (node : Node) : Acting RecoResult := do
  let id ← draw .reco
  emit (context.event node .recognition .starting .invalid id .invalid)
  let result := recoResult id node (← context.recognizer.find frame node)
  modifyCache (Cache.putReco result)
  emit (context.event node .recognition (.ofSuccess result.isHit) .invalid id .invalid)
  pure result

/-! ## Action -/

/-- Waits for a still screen, if this is asked for. -/
def awaitStill (context : RunContext) (node : Node) (wait : WaitFreezes) :
    Acting Actuator.Waited :=
  if wait.isEnabled then
    context.actuator.awaitStill context.signal context.patience wait node
  else pure (.ended true)

/-- Whether a wait ended because a stop was requested. -/
def wasCutShort (context : RunContext) (waited : Actuator.Waited) : Acting Bool :=
  if waited = .ended true then pure false else isStopped context.signal

/-- Waits for a still screen and rests; whether the run is to go on, or nothing
if the wait goes on. Not to have seen a still screen is no reason to stop. -/
def settle (context : RunContext) (node : Node) (wait : WaitFreezes) (delay : UInt64) :
    Acting (Option Bool) := do
  let waited ← context.awaitStill node wait
  if waited = .unfinished then pure none
  else if ← context.wasCutShort waited then pure (some false)
  else return some (← sleep context.signal (nanoseconds delay))

/-- What came of the action of a node. -/
inductive Acted where
  | done (action : ActionId) (success : Bool)
  /-- The run was asked to stop before the action. -/
  | notStarted
  | unfinished

/-- Carries out the action of a node that was hit, with the rests around it. -/
def act (context : RunContext) (visit : NodeId) (node : Node) (hit : RecoResult) :
    Acting Acted := do
  match ← context.settle node node.preWait node.preDelay with
  | none => pure .unfinished
  | some false => pure .notStarted
  | some true =>
    let id ← draw .action
    emit (context.event node .action .starting visit hit.id id)
    let success := (← context.actuator.act hit node).getD false
    modifyCache (Cache.putAction ⟨id, node.name, success⟩)
    emit (context.event node .action (.ofSuccess success) visit hit.id id)
    match ← context.settle node node.postWait node.postDelay with
    | none => pure .unfinished
    | some _ => pure (.done id success)

/-! ## Record -/

/-- Records a visit in the cache and in the task. -/
def recordVisit (context : RunContext) (detail : NodeDetail) : Acting Unit := do
  withCache (Cache.recordNode detail)
  modifyCache fun cache => (cache.pushVisit context.task detail.id).2

end RunContext

end ScreenPilot
