import ScreenPilot.Geometry
import ScreenPilot.Id
import ScreenPilot.Json.Union
import ScreenPilot.Timestamp

/-!
# What a run leaves behind

The records of recognition attempts, executed actions, visited nodes and posted
tasks, each under the identity it was given, with the JSON form it has outside
the engine.
-/

set_option autoImplicit false

namespace ScreenPilot

namespace Id

variable {kind : IdKind}

def toJson (id : Id kind) : Json := .integer id.number.toNat

def read : Reads (Id kind) := fun value => (Decode.uint64 value).map Id.mk

end Id

/-- What a recognizer reports for a hit. -/
structure Recognition where
  box : Rect
  detail : Json
deriving Inhabited

/-- One recognition attempt; a miss has no box. -/
structure RecoResult where
  id : RecoId
  /-- The node that was looked for. -/
  name : String
  /-- The kind of recognition. -/
  algorithm : String
  box : Option Rect
  detail : Json
deriving Inhabited

namespace RecoResult

/-- The attempt found its node. -/
def isHit (result : RecoResult) : Bool := result.box.isSome

def toJson (result : RecoResult) : Json :=
  .object [("algorithm", .string result.algorithm), ("box", .ofOption Rect.toJson result.box),
    ("detail", result.detail), ("name", .string result.name), ("reco_id", result.id.toJson)]

def form : RecordForm RecoResult where
  label := "struct RecoResult"
  isClosed := false
  fields :=
    [.of "reco_id" .always Id.read fun id result => { result with id },
     .of "name" .always Decode.text fun name result => { result with name },
     .of "algorithm" .always Decode.text fun algorithm result => { result with algorithm },
     .of "box" .inArrays (Decode.optional Rect.read) fun box result => { result with box },
     .of "detail" .always Decode.anything fun detail result => { result with detail }]

def read : Reads RecoResult := form.read default false

end RecoResult

/-- One executed action. -/
structure ActionResult where
  id : ActionId
  /-- The node whose action it was. -/
  name : String
  success : Bool
deriving DecidableEq, Inhabited

namespace ActionResult

def toJson (result : ActionResult) : Json :=
  .object [("action_id", result.id.toJson), ("name", .string result.name),
    ("success", .bool result.success)]

def form : RecordForm ActionResult where
  label := "struct ActionResult"
  isClosed := false
  fields :=
    [.of "action_id" .always Id.read fun id result => { result with id },
     .of "name" .always Decode.text fun name result => { result with name },
     .of "success" .always Decode.bool fun success result => { result with success }]

def read : Reads ActionResult := form.read default false

end ActionResult

/-- One visit of a node. -/
structure NodeDetail where
  id : NodeId
  name : String
  /-- The attempt that led here; invalid if there was none. -/
  reco : RecoId
  /-- The action that was carried out; invalid if none was. -/
  action : ActionId
  /-- False when the action failed or did not start, or when nothing matched. -/
  completed : Bool
deriving DecidableEq, Inhabited

namespace NodeDetail

def toJson (detail : NodeDetail) : Json :=
  .object [("action_id", detail.action.toJson), ("completed", .bool detail.completed),
    ("name", .string detail.name), ("node_id", detail.id.toJson),
    ("reco_id", detail.reco.toJson)]

def form : RecordForm NodeDetail where
  label := "struct NodeDetail"
  isClosed := false
  fields :=
    [.of "node_id" .always Id.read fun id detail => { detail with id },
     .of "name" .always Decode.text fun name detail => { detail with name },
     .of "reco_id" .always Id.read fun reco detail => { detail with reco },
     .of "action_id" .always Id.read fun action detail => { detail with action },
     .of "completed" .always Decode.bool fun completed detail => { detail with completed }]

def read : Reads NodeDetail := form.read default false

end NodeDetail

/-- Where a task stands. -/
inductive TaskStatus where
  /-- The identity was never given to a task. -/
  | invalid
  | pending
  | running
  | succeeded
  | failed
  /-- Ended because a stop was requested, which is no failure. -/
  | stopped
deriving DecidableEq, Inhabited, Repr

namespace TaskStatus

/-- Every status, in the order of a task's life. -/
def all : List TaskStatus := [.invalid, .pending, .running, .succeeded, .failed, .stopped]

/-- The name of a status in a record. -/
def name : TaskStatus → String
  | .invalid => "Invalid"
  | .pending => "Pending"
  | .running => "Running"
  | .succeeded => "Succeeded"
  | .failed => "Failed"
  | .stopped => "Stopped"

/-- The status as it is shown. -/
def text : TaskStatus → String
  | .invalid => "invalid"
  | .pending => "pending"
  | .running => "running"
  | .succeeded => "succeeded"
  | .failed => "failed"
  | .stopped => "stopped"

/-- The task has ended. -/
def isDone : TaskStatus → Bool
  | .succeeded | .failed | .stopped => true
  | .invalid | .pending | .running => false

/-- The status with a name. -/
def ofName? (name : String) : Option TaskStatus := all.find? fun status => status.name = name

def toJson (status : TaskStatus) : Json := .string status.name

def read : Reads TaskStatus := fun value =>
  (Decode.variantName (all.map TaskStatus.name) value).map fun name => (ofName? name).getD default

end TaskStatus

/-- One posted task and the visits it made, in their order. -/
structure TaskDetail where
  id : TaskId
  entry : String
  visits : List NodeId
  status : TaskStatus
  created : Timestamp
  finished : Option Timestamp
deriving DecidableEq, Inhabited

namespace TaskDetail

/-- A task just posted. -/
def posted (id : TaskId) (entry : String) (now : Timestamp) : TaskDetail :=
  { id, entry, visits := [], status := .pending, created := now, finished := none }

/-- The task with another status; an end is stamped with its time. -/
def withStatus (detail : TaskDetail) (status : TaskStatus) (now : Timestamp) : TaskDetail :=
  { detail with status, finished := if status.isDone then some now else detail.finished }

/-- The task with one more visit. -/
def withVisit (detail : TaskDetail) (visit : NodeId) : TaskDetail :=
  { detail with visits := detail.visits ++ [visit] }

def toJson (detail : TaskDetail) : Json :=
  .object [("created_at", detail.created.toJson), ("entry", .string detail.entry),
    ("finished_at", .ofOption Timestamp.toJson detail.finished),
    ("node_ids", .array (detail.visits.map Id.toJson)), ("status", detail.status.toJson),
    ("task_id", detail.id.toJson)]

def form : RecordForm TaskDetail where
  label := "struct TaskDetail"
  isClosed := false
  fields :=
    [.of "task_id" .always Id.read fun id detail => { detail with id },
     .of "entry" .always Decode.text fun entry detail => { detail with entry },
     .of "node_ids" .always (Decode.list Id.read) fun visits detail => { detail with visits },
     .of "status" .always TaskStatus.read fun status detail => { detail with status },
     .of "created_at" .always Timestamp.read fun created detail => { detail with created },
     .of "finished_at" .inArrays (Decode.optional Timestamp.read)
       fun finished detail => { detail with finished }]

def read : Reads TaskDetail := form.read default false

end TaskDetail

end ScreenPilot
