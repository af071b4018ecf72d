import ScreenPilot.Activity
import ScreenPilot.Report

/-!
# The cache of records

Everything that runs leave behind, each record under the identity it was given,
in five tables. Each access to one table happens at once, but an operation on
several tables is a sequence of such accesses. Records stay until the whole
cache is cleared.
-/

set_option autoImplicit false

namespace ScreenPilot

/-- The records of all runs. -/
structure Cache where
  recos : Std.ExtTreeMap RecoId RecoResult
  actions : Std.ExtTreeMap ActionId ActionResult
  nodes : Std.ExtTreeMap NodeId NodeDetail
  /-- The last visit of each node, by the node's name. -/
  latest : Std.ExtTreeMap String NodeId
  tasks : Std.ExtTreeMap TaskId TaskDetail

namespace Cache

/-- The cache without records. -/
def empty : Cache := ⟨∅, ∅, ∅, ∅, ∅⟩

instance : Inhabited Cache := ⟨empty⟩

/-! ## Single tables -/

def putReco (result : RecoResult) (cache : Cache) : Cache :=
  { cache with recos := cache.recos.insert result.id result }

def putAction (result : ActionResult) (cache : Cache) : Cache :=
  { cache with actions := cache.actions.insert result.id result }

def putNode (detail : NodeDetail) (cache : Cache) : Cache :=
  { cache with nodes := cache.nodes.insert detail.id detail }

def putLatest (name : String) (visit : NodeId) (cache : Cache) : Cache :=
  { cache with latest := cache.latest.insert name visit }

def putTask (detail : TaskDetail) (cache : Cache) : Cache :=
  { cache with tasks := cache.tasks.insert detail.id detail }

def reco? (cache : Cache) (id : RecoId) : Option RecoResult := cache.recos[id]?

def action? (cache : Cache) (id : ActionId) : Option ActionResult := cache.actions[id]?

def node? (cache : Cache) (id : NodeId) : Option NodeDetail := cache.nodes[id]?

def latest? (cache : Cache) (name : String) : Option NodeId := cache.latest[name]?

def task? (cache : Cache) (id : TaskId) : Option TaskDetail := cache.tasks[id]?

/-- The last visit of a node. -/
def latestNode? (cache : Cache) (name : String) : Option NodeDetail :=
  (cache.latest? name).bind cache.node?

/-- Changes a task that is there, and says whether it is. -/
def changeTask (id : TaskId) (change : TaskDetail → TaskDetail) (cache : Cache) : Bool × Cache :=
  match cache.task? id with
  | none => (false, cache)
  | some detail => (true, { cache with tasks := cache.tasks.insert id (change detail) })

/-- Adds a visit to a task. -/
def pushVisit (task : TaskId) (visit : NodeId) (cache : Cache) : Bool × Cache :=
  cache.changeTask task fun detail => detail.withVisit visit

/-- Gives a task another status. -/
def setStatus (task : TaskId) (status : TaskStatus) (now : Timestamp) (cache : Cache) :
    Bool × Cache :=
  cache.changeTask task fun detail => detail.withStatus status now

/-! ## Several tables -/

variable {interface : Interface}

/-- Records a visit, and then makes it the last one of its node. -/
def recordNode (detail : NodeDetail) : Activity interface Cache Unit := do
  Activity.modify (putNode detail)
  Activity.modify (putLatest detail.name detail.id)

/-- Drops every record, table by table. -/
def clear : Activity interface Cache Unit := do
  Activity.modify fun cache => { cache with recos := ∅ }
  Activity.modify fun cache => { cache with actions := ∅ }
  Activity.modify fun cache => { cache with nodes := ∅ }
  Activity.modify fun cache => { cache with latest := ∅ }
  Activity.modify fun cache => { cache with tasks := ∅ }

end Cache

end ScreenPilot
