import ScreenPilot.Engine.Cache
import ScreenPilot.Engine.Notifier
import ScreenPilot.Engine.Outside
import ScreenPilot.Engine.Stats
import Std.Data.ExtTreeSet.Basic

/-!
# The engine

What all runs of one engine share, and the small activities runs are made of.
A request to stop a task is a signal that is raised once and never lowered; a
run looks at it between its steps and when it has rested.
-/

set_option autoImplicit false

namespace ScreenPilot

/-- How a run learns that it is to stop. -/
structure StopSignal where
  /-- The task whose requests to stop are meant. -/
  task : TaskId
  /-- How often a rest is interrupted to look, in milliseconds. -/
  poll : UInt64
deriving DecidableEq

/-- What all runs of an engine share. -/
structure Engine where
  cache : Cache
  ids : IdSource
  notifier : Notifier
  stats : Stats
  /-- The tasks that are asked to stop. -/
  stopped : Std.ExtTreeSet TaskId

namespace Engine

/-- An engine that has done nothing yet. -/
def new (debugMode : Bool) : Engine := ⟨.empty, .initial, .new debugMode, .zero, ∅⟩

instance : Inhabited Engine := ⟨new false⟩

/-- Asks a task to stop. -/
def raiseStop (task : TaskId) (engine : Engine) : Engine :=
  { engine with stopped := engine.stopped.insert task }

/-- An activity of the engine. -/
abbrev Acting (α : Type) : Type := Activity outside Engine α

/-! ## The shared state -/

/-- Changes the cache at once. -/
def modifyCache (change : Cache → Cache) : Acting Unit :=
  Activity.modify fun engine => { engine with cache := change engine.cache }

/-- Changes the cache in the steps of an activity. -/
def withCache {α : Type} (activity : Activity outside Cache α) : Acting α :=
  activity.within Engine.cache fun cache engine => { engine with cache }

/-- Gives out the next identity of a kind. -/
def draw (kind : IdKind) : Acting (Id kind) :=
  Activity.transact fun engine =>
    ((engine.ids.draw kind).1, { engine with ids := (engine.ids.draw kind).2 })

/-- Publishes an event. -/
def emit (event : Notification) : Acting Unit :=
  Activity.modify fun engine => { engine with notifier := engine.notifier.emit event }

/-- Counts an input. -/
def countOp (success : Bool) : Acting Unit :=
  Activity.modify fun engine => { engine with stats := engine.stats.countOp success }

/-- Whether a run is asked to stop. -/
def isStopped (signal : StopSignal) : Acting Bool :=
  Activity.reads fun engine => engine.stopped.contains signal.task

/-! ## Time -/

/-- Milliseconds in nanoseconds. -/
def nanoseconds (milliseconds : UInt64) : Nat := milliseconds.toNat * 1000000

/-- The time on the clock, in nanoseconds. -/
def now : Acting Nat := .ask Question.now .done

/-- The date and time of day. -/
def date : Acting Timestamp := .ask Question.date .done

/-- Rests for some nanoseconds, and says whether the run is to go on. -/
def sleep (signal : StopSignal) (duration : Nat) : Acting Bool := do
  if ← isStopped signal then pure false
  else if duration = 0 then pure true
  else
    let _ : Unit ← .ask (Question.rest signal.poll duration) .done
    return ¬ (← isStopped signal)

/-! ## The device -/

/-- Captures the screen. A capture that crashes is not counted. -/
def capture (controller : Handle) : Acting (Reply (Option Frame)) := do
  let reply : Reply (Option Frame) ← .ask (Question.capture controller) .done
  match reply with
  | .crashed => pure .crashed
  | .returned frame =>
    Activity.modify fun engine => { engine with stats := engine.stats.countCapture frame.isSome }
    pure (.returned frame)

/-- Sends an input to the device. -/
def send (controller : Handle) (input : Input) : Acting (Reply Bool) :=
  .ask (Question.send controller input) .done

end Engine

end ScreenPilot
