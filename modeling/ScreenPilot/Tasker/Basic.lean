import ScreenPilot.Config.Settings
import ScreenPilot.Engine.Basic
import ScreenPilot.Runner

/-!
# Taskers

A tasker is the front of the engine. Tasks are posted to it; its runner carries
them out one at a time. A request to stop ends the task that runs and all that
are queued, and until a marker at the end of the queue is reached, no task is
accepted.
-/

set_option autoImplicit false

namespace ScreenPilot

/-- What a task does. -/
inductive TaskKind where
  /-- Walks the graph from the entry. -/
  | pipeline
  /-- Recognizes the entry once. -/
  | recognition
  /-- Carries out the action of the entry on a box. -/
  | action (box : Rect)
  /-- Marks the end of a request to stop. -/
  | marker
deriving DecidableEq

/-- A task as a job of the runner. -/
structure TaskJob where
  task : TaskId
  entry : String
  kind : TaskKind
  /-- Nodes that take the place of the resource's, for this task. -/
  overrides : Graph

/-- The front of the engine. -/
structure Tasker where
  settings : TaskerSettings
  /-- What the nodes of overrides do not say. -/
  defaults : NodeDefaults
  engine : Engine
  controller : Option Handle
  resource : Option Handle
  /-- Takes the place of the stock recognizer. -/
  recognizer : Option Handle
  /-- Takes the place of the stock actuator. -/
  actuator : Option Handle
  /-- A request to stop is being carried out. -/
  stopping : Bool
  runner : Runner TaskJob
  /-- The job of each task. -/
  jobs : Std.ExtTreeMap TaskId JobId
  /-- The task of each job. -/
  tasks : Std.ExtTreeMap JobId TaskId

namespace Tasker

/-- A tasker to which nothing is bound. -/
def new (settings : TaskerSettings) (defaults : NodeDefaults) : Tasker where
  settings := settings
  defaults := defaults
  engine := .new settings.debugMode
  controller := none
  resource := none
  recognizer := none
  actuator := none
  stopping := false
  runner := .new
  jobs := ∅
  tasks := ∅

/-- A tasker with the settings of a configuration. -/
def ofConfig (config : EngineConfig) : Tasker := new config.tasker config.defaults

instance : Inhabited Tasker := ⟨new default default⟩

/-- An activity of a tasker. -/
abbrev Tasking (α : Type) : Type := Activity Engine.outside Tasker α

/-- An activity of the engine, carried out by the tasker. -/
def withEngine {α : Type} (activity : Engine.Acting α) : Tasking α :=
  activity.within Tasker.engine fun engine tasker => { tasker with engine }

/-! ## Binding -/

def bindController (controller : Handle) (tasker : Tasker) : Tasker :=
  { tasker with controller := some controller }

def bindResource (resource : Handle) (tasker : Tasker) : Tasker :=
  { tasker with resource := some resource }

/-- Replaces the recognizer; without one, the stock recognizer is used. -/
def setRecognizer (recognizer : Option Handle) (tasker : Tasker) : Tasker :=
  { tasker with recognizer }

/-- Replaces the actuator; without one, the stock actuator is used. -/
def setActuator (actuator : Option Handle) (tasker : Tasker) : Tasker := { tasker with actuator }

/-! ## Status -/

/-- Where a task stands. -/
def status (tasker : Tasker) (task : TaskId) : TaskStatus :=
  match tasker.jobs[task]? with
  | none => .invalid
  | some job => (tasker.runner.status job).task

/-- What waiting for a task gives, once it gives something. -/
def awaited? (tasker : Tasker) (task : TaskId) : Option TaskStatus :=
  match tasker.jobs[task]? with
  | none => some .invalid
  | some job => (tasker.runner.awaited? job).map JobStatus.task

/-- A task runs or is to run. -/
def isRunning (tasker : Tasker) : Bool := tasker.runner.isRunning

end Tasker

end ScreenPilot
