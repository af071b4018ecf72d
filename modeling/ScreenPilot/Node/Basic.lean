import ScreenPilot.Config.Settings
import ScreenPilot.Node.Param
import Std.Data.ExtTreeSet.Basic

/-!
# Nodes

A node of a pipeline graph names the nodes it may hand control to; the names
are looked up only when a run needs them. Times are in milliseconds.
-/

set_option autoImplicit false

namespace ScreenPilot

/-- One named node of a pipeline graph. -/
structure Node where
  name : String
  /-- A disabled node is never looked for. -/
  enabled : Bool
  /-- Hits the node may take in one run. -/
  maxHit : UInt32
  /-- A hit interrupts the node that was waiting for it. -/
  isSub : Bool
  next : List String
  interrupt : List String
  onError : List String
  /-- Labels under which a hit of this node is remembered. -/
  checkpoint : Std.ExtTreeSet String
  /-- Labels to go back to instead of going on. -/
  jumpback : List String
  timeout : UInt64
  rateLimit : UInt64
  preDelay : UInt64
  postDelay : UInt64
  preWait : WaitFreezes
  postWait : WaitFreezes
  recognition : RecoParam
  action : ActionParam
  /-- Present on nodes whose events are always published. -/
  focus : Option Json

namespace Node

/-- A node that says nothing about itself. -/
def ofDefaults (name : String) (defaults : NodeDefaults) : Node where
  name := name
  enabled := true
  maxHit := defaults.maxHit.getD 4294967295
  isSub := false
  next := []
  interrupt := []
  onError := []
  checkpoint := ∅
  jumpback := []
  timeout := defaults.timeoutMs
  rateLimit := defaults.rateLimitMs
  preDelay := defaults.preDelayMs
  postDelay := defaults.postDelayMs
  preWait := default
  postWait := default
  recognition := .directHit
  action := .doNothing
  focus := none

instance : Inhabited Node := ⟨ofDefaults "" default⟩

/-- Every name the node may hand control to. -/
def references (node : Node) : List String := node.next ++ node.interrupt ++ node.onError

/-- The candidates after the node has completed: the next nodes and, from the
returned position on, the interrupts. -/
def followers (node : Node) : List String × Nat := (node.next ++ node.interrupt, node.next.length)

/-- The labels of a list as a set. -/
def labelSet (labels : List String) : Std.ExtTreeSet String := Std.ExtTreeSet.ofList labels

end Node

end ScreenPilot
