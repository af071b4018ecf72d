import ScreenPilot.Run.Visit

/-!
# Runs of one node

A node can be recognized once without acting, and its action can be carried out
on a given box without recognizing. Either is one visit that leaves nothing to
be remembered and follows no edge.
-/

set_option autoImplicit false

namespace ScreenPilot

namespace RunContext

open Engine

variable (context : RunContext)

/-- A run on one node, which must be there, unless a stop is requested. -/
def onNode (entry : String) (run : Node → Acting RunResult) : Acting RunResult :=
  match context.graph.find? entry with
  | none => pure (.ended (.failed (.unknownNode entry)))
  | some node => do
    if ← isStopped context.signal then pure (.ended .stopped) else run node

/-- How a single visit ended. -/
def singleOutcome (success : Bool) (fault : Fault) : RunResult :=
  .ended (if success then .succeeded else .failed (.unhandled fault))

/-- The one attempt on a frame, if there is a frame, and whether it was a hit. -/
def attemptOn (node : Node) : Option Frame → Acting (RecoId × Bool)
  | none => pure (.invalid, false)
  | some frame => do
    let result ← context.recognize frame node
    pure (result.id, result.isHit)

/-- Recognizes a node once. -/
def recognizeOnce (entry : String) : Acting RunResult :=
  context.onNode entry fun node => do
    let visit ← draw .node
    match ← capture context.controller with
    | .crashed => pure .crashed
    | .returned frame =>
      let (reco, found) ← context.attemptOn node frame
      context.recordVisit ⟨visit, node.name, reco, .invalid, found⟩
      pure (singleOutcome found .noMatch)

/-- Carries out the action of a node on a box. -/
def actOnce (entry : String) (box : Rect) : Acting RunResult :=
  context.onNode entry fun node => do
    let hit : RecoResult :=
      { id := ← draw .reco, name := node.name, algorithm := RecoParam.directHit.kind,
        box := some box, detail := .null }
    modifyCache (Cache.putReco hit)
    let visit ← draw .node
    match ← context.act visit node hit with
    | .unfinished => pure .unfinished
    | .notStarted =>
      context.recordVisit ⟨visit, node.name, hit.id, .invalid, false⟩
      pure (.ended .stopped)
    | .done action success =>
      context.recordVisit ⟨visit, node.name, hit.id, action, success⟩
      pure (singleOutcome success .actionFailed)

end RunContext

end ScreenPilot
