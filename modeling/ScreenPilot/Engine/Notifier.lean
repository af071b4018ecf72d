import ScreenPilot.Id
import ScreenPilot.Json.Value
import ScreenPilot.Report

/-!
# Notifications

What happens to tasks and nodes is published to any number of subscribers, each
with an inbox of its own. Events of nodes are published only for nodes with a
focus, or for all nodes in debug mode. A subscriber that has left is taken off
the list by the next event that is published.
-/

set_option autoImplicit false

namespace ScreenPilot

/-! ## Events -/

/-- What happened to a task. -/
inductive TaskPhase where
  | starting
  | succeeded
  | failed
  | stopped
deriving DecidableEq

/-- How far a recognition or an action is. -/
inductive StepPhase where
  | starting
  | succeeded
  | failed
deriving DecidableEq

/-- What a step is. -/
inductive StepKind where
  | recognition
  | action
deriving DecidableEq

namespace TaskPhase

def name : TaskPhase → String
  | .starting => "Starting"
  | .succeeded => "Succeeded"
  | .failed => "Failed"
  | .stopped => "Stopped"

/-- How the end of a task is announced. -/
def ofStatus : TaskStatus → TaskPhase
  | .succeeded => .succeeded
  | .stopped => .stopped
  | .invalid | .pending | .running | .failed => .failed

end TaskPhase

namespace StepPhase

def name : StepPhase → String
  | .starting => "Starting"
  | .succeeded => "Succeeded"
  | .failed => "Failed"

/-- How the end of a step is announced. -/
def ofSuccess (success : Bool) : StepPhase := if success then .succeeded else .failed

end StepPhase

def StepKind.name : StepKind → String
  | .recognition => "Recognition"
  | .action => "Action"

/-- An event of a task. -/
structure TaskEvent where
  phase : TaskPhase
  task : TaskId
  entry : String

/-- An event of a node; identities that are not known yet are invalid. -/
structure NodeEvent where
  kind : StepKind
  phase : StepPhase
  task : TaskId
  node : NodeId
  reco : RecoId
  action : ActionId
  name : String
  focus : Option Json

/-- An event. -/
inductive Notification where
  | ofTask (event : TaskEvent)
  | ofNode (event : NodeEvent)

namespace Notification

/-- The task an event belongs to. -/
def task : Notification → TaskId
  | .ofTask event => event.task
  | .ofNode event => event.task

/-- The name of an event in its JSON form. -/
def name : Notification → String
  | .ofTask event => "Task" ++ event.phase.name
  | .ofNode event => event.kind.name ++ event.phase.name

/-- The name of an event as it is shown. -/
def label : Notification → String
  | .ofTask event => "Task." ++ event.phase.name
  | .ofNode event => "Node." ++ event.kind.name ++ "." ++ event.phase.name

/-- What an event says beside its name. -/
def detail : Notification → Json
  | .ofTask event => .object [("entry", .string event.entry), ("task_id", event.task.toJson)]
  | .ofNode event =>
    .object [("action_id", event.action.toJson), ("focus", .ofOption id event.focus),
      ("name", .string event.name), ("node_id", event.node.toJson),
      ("reco_id", event.reco.toJson), ("task_id", event.task.toJson)]

def toJson (event : Notification) : Json :=
  .object [("detail", event.detail), ("event", .string event.name)]

end Notification

/-! ## Subscribers -/

/-- A receiver of events. -/
structure Subscriber where
  /-- The events received and not yet taken, oldest first. -/
  inbox : List Notification
  /-- The subscriber has not left. -/
  isPresent : Bool
  /-- The subscriber is on the list of those that are sent events. -/
  isListed : Bool

/-- A subscriber that has received nothing yet. -/
def Subscriber.new : Subscriber := ⟨[], true, true⟩

/-- The subscriber after an event is sent to all on the list. -/
def Subscriber.send (event : Notification) (subscriber : Subscriber) : Subscriber :=
  if ¬ subscriber.isListed then subscriber
  else if subscriber.isPresent then { subscriber with inbox := subscriber.inbox ++ [event] }
  else { subscriber with isListed := false }

/-- The subscribers, known by their position, and what is published to them. -/
structure Notifier where
  subscribers : List Subscriber
  /-- Publish the events of all nodes. -/
  debugMode : Bool

namespace Notifier

/-- A notifier without subscribers. -/
def new (debugMode : Bool) : Notifier := ⟨[], debugMode⟩

instance : Inhabited Notifier := ⟨new false⟩

/-- Adds a subscriber, and says under which number. -/
def subscribe (notifier : Notifier) : Nat × Notifier :=
  (notifier.subscribers.length,
    { notifier with subscribers := notifier.subscribers ++ [.new] })

/-- A subscriber leaves. -/
def leave (subscriber : Nat) (notifier : Notifier) : Notifier :=
  { notifier with
    subscribers := notifier.subscribers.modify subscriber
      fun one => { one with isPresent := false } }

def setDebugMode (enabled : Bool) (notifier : Notifier) : Notifier :=
  { notifier with debugMode := enabled }

/-- Whether an event is published. -/
def publishes (notifier : Notifier) : Notification → Bool
  | .ofTask _ => true
  | .ofNode event => event.focus.isSome || notifier.debugMode

/-- Publishes an event, if it is to be published. -/
def emit (event : Notification) (notifier : Notifier) : Notifier :=
  if notifier.publishes event then
    { notifier with subscribers := notifier.subscribers.map (Subscriber.send event) }
  else notifier

/-- The number of subscribers on the list. -/
def count (notifier : Notifier) : Nat := notifier.subscribers.countP Subscriber.isListed

/-- Takes the events out of an inbox; there are none to take from a subscriber
that has left. -/
def drain (subscriber : Nat) (notifier : Notifier) : Option (List Notification) × Notifier :=
  match notifier.subscribers[subscriber]? with
  | some one =>
    if one.isPresent then
      (some one.inbox,
        { notifier with
          subscribers := notifier.subscribers.modify subscriber
            fun one => { one with inbox := [] } })
    else (none, notifier)
  | none => (none, notifier)

end Notifier

end ScreenPilot
