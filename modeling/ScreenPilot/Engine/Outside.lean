import ScreenPilot.Activity
import ScreenPilot.Graph.Basic
import ScreenPilot.Report

/-!
# The outside of the engine

Everything the engine does not do itself: the clock, the device, the resource
and the plug-ins. The engine asks, and any answer may come; where a call runs
code that the engine does not trust, the answer may also be that it crashed.
-/

set_option autoImplicit false

namespace ScreenPilot

/-- An input to a device. A controller presses long by a touch that stays in place, unless it
has a way of its own to do so; a device that is pressed in such a way is not covered. -/
inductive Input where
  | click (point : Point)
  /-- A touch that moves, or stays in place, for so many milliseconds. -/
  | swipe (start finish : Point) (duration : UInt64)
  | key (code : Int32)
  | text (text : String)
  | startApp (package : String)
  | stopApp (package : String)
deriving DecidableEq

namespace Engine

/-- A question of the engine. -/
inductive Question where
  /-- The time on a clock that never goes back, in nanoseconds. -/
  | now
  /-- The date and time of day. -/
  | date
  /-- Rest for so many nanoseconds, or until a request to stop is noticed, for
  which one looks every so many milliseconds. -/
  | rest (poll : UInt64) (duration : Nat)
  | isConnected (controller : Handle)
  | capture (controller : Handle)
  | send (controller : Handle) (input : Input)
  /-- Give up what takes long, because a stop was requested. -/
  | haltController (controller : Handle)
  | isLoaded (resource : Handle)
  | graph (resource : Handle)
  | haltResource (resource : Handle)
  /-- The recognition plug-in that the resource has under a name. -/
  | recognitionPlugIn (resource : Handle) (name : String)
  /-- The action plug-in that the resource has under a name. -/
  | actionPlugIn (resource : Handle) (name : String)
  /-- Look for a match in a frame. -/
  | analyze (plugIn : Handle) (frame : Frame) (param : Json)
  /-- Perform an action at a box. -/
  | perform (plugIn controller : Handle) (param : Json) (box : Option Rect) (detail : Json)
  /-- Recognize a node with a recognizer that takes the place of the stock one. -/
  | recognize (recognizer : Handle) (frame : Frame) (node : Node)
  /-- Carry out the action of a node with an actuator that takes the place of
  the stock one. -/
  | act (actuator : Handle) (hit : RecoResult) (node : Node)
  /-- Wait for a still screen with an actuator that takes the place of the stock
  one. -/
  | awaitStill (actuator : Handle) (wait : WaitFreezes) (node : Node)

/-- The answers to a question. -/
def Answer : Question → Type
  | .now => Nat
  | .date => Timestamp
  | .rest _ _ => Unit
  | .isConnected _ => Bool
  | .capture _ => Reply (Option Frame)
  | .send _ _ => Reply Bool
  | .haltController _ => Unit
  | .isLoaded _ => Bool
  | .graph _ => Graph
  | .haltResource _ => Unit
  | .recognitionPlugIn _ _ => Option Handle
  | .actionPlugIn _ _ => Option Handle
  | .analyze _ _ _ => Reply (Option Recognition)
  | .perform _ _ _ _ _ => Reply Bool
  | .recognize _ _ _ => Reply (Option Recognition)
  | .act _ _ _ => Reply Bool
  | .awaitStill _ _ _ => Reply Bool

/-- The outside as seen by an activity. -/
def outside : Interface := ⟨Question, Answer⟩

end Engine

end ScreenPilot
