import ScreenPilot.Report

/-!
# How runs end

A run ends because nothing is left to do, because it failed, or because it was
asked to stop, which is no failure. Apart from that, the device may crash under
a run, and a run that waits may be followed for so long only.
-/

set_option autoImplicit false

namespace ScreenPilot

/-- What went wrong on a visit of a node. -/
inductive Fault where
  /-- No candidate was recognized in time. -/
  | noMatch
  /-- A node was recognized and its action failed. -/
  | actionFailed
deriving DecidableEq, Repr

/-- The wording of a fault. -/
def Fault.message : Fault → String
  | .noMatch => "no match"
  | .actionFailed => "action failed"

/-- Why a run failed. -/
inductive RunFailure where
  /-- Handling an error failed in turn. -/
  | errorLoop
  /-- The node at fault names no node that handles errors. -/
  | unhandled (fault : Fault)
  /-- No node has this name. -/
  | unknownNode (name : String)
deriving DecidableEq, Repr

/-- The wording of a failure. -/
def RunFailure.message : RunFailure → String
  | .errorLoop => "error handling loop detected"
  | .unhandled fault => fault.message ++ " with no on_error handler"
  | .unknownNode name => "node '" ++ name ++ "' not found"

/-- How a run ended. -/
inductive RunOutcome where
  | succeeded
  | failed (failure : RunFailure)
  | stopped
deriving DecidableEq, Repr

/-- The status of a task whose run ended so. -/
def RunOutcome.status : RunOutcome → TaskStatus
  | .succeeded => .succeeded
  | .failed _ => .failed
  | .stopped => .stopped

/-- What is known of a run. -/
inductive RunResult where
  | ended (outcome : RunOutcome)
  /-- The device crashed while the screen was captured. -/
  | crashed
  /-- The run was followed for as many rounds as asked for and goes on. -/
  | unfinished
deriving DecidableEq, Repr

end ScreenPilot
