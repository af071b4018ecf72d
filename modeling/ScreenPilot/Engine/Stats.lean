/-!
# Counts of device calls

How many inputs and captures the engine has asked for, and how many failed.
-/

set_option autoImplicit false

namespace ScreenPilot

/-- Counts of device calls. -/
structure Stats where
  successfulOps : UInt64
  failedOps : UInt64
  /-- All captures, with those that failed. -/
  captures : UInt64
  failedCaptures : UInt64
deriving DecidableEq

namespace Stats

/-- Nothing has been counted. -/
def zero : Stats := ⟨0, 0, 0, 0⟩

instance : Inhabited Stats := ⟨zero⟩

/-- Counts an input. -/
def countOp (success : Bool) (stats : Stats) : Stats :=
  if success then { stats with successfulOps := stats.successfulOps + 1 }
  else { stats with failedOps := stats.failedOps + 1 }

/-- Counts a capture. -/
def countCapture (success : Bool) (stats : Stats) : Stats :=
  { stats with
    captures := stats.captures + 1
    failedCaptures := if success then stats.failedCaptures else stats.failedCaptures + 1 }

/-- The share of inputs that succeeded, in percent; all if there were none. -/
def successRate (stats : Stats) : Float :=
  let total := stats.successfulOps + stats.failedOps
  if total = 0 then 100 else stats.successfulOps.toFloat / total.toFloat * 100

end Stats

end ScreenPilot
