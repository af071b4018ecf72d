import ScreenPilot.Activity
import ScreenPilot.Report
import Std.Data.ExtTreeMap.Basic

/-!
# Runners

A runner carries out jobs one at a time, in the order in which they were
posted. Its worker takes the first job of the queue and reports how it ended;
others post jobs, look at them, or drop all that have not begun. Each of these
happens at once, so the state of a runner is one value and each of them a
function on it.
-/

set_option autoImplicit false

namespace ScreenPilot

/-- The number of a job of one runner. -/
structure JobId where
  number : UInt64
deriving DecidableEq, Repr

namespace JobId

/-- The number as it is shown. -/
def text (id : JobId) : String := "JobId(" ++ toString id.number ++ ")"

instance : Ord JobId := ⟨fun left right => compare left.number right.number⟩

instance : Std.TransOrd JobId where
  eq_swap := fun {_ _} => @Std.OrientedCmp.eq_swap UInt64 compare _ _ _
  isLE_trans := fun {_ _ _} => @Std.TransCmp.isLE_trans UInt64 compare _ _ _ _

instance : Std.LawfulEqOrd JobId where
  eq_of_compare := fun {left right} same => by
    cases left
    cases right
    exact congrArg JobId.mk (@Std.LawfulEqCmp.eq_of_compare UInt64 compare _ _ _ same)

end JobId

/-- Where a job may stand. -/
inductive JobStatus where
  /-- The number was never given to a job. -/
  | unknown
  | pending
  | running
  | succeeded
  | failed
  /-- Dropped before it began, or ended early because this was asked for. -/
  | cancelled
deriving DecidableEq, Repr

/-- How a job ended. -/
inductive JobOutcome where
  | succeeded
  | failed
  | cancelled
deriving DecidableEq, Repr

namespace JobStatus

/-- Every status, in the order of a job's life. -/
def all : List JobStatus := [.unknown, .pending, .running, .succeeded, .failed, .cancelled]

def name : JobStatus → String
  | .unknown => "NotExist"
  | .pending => "Pending"
  | .running => "Running"
  | .succeeded => "Succeeded"
  | .failed => "Failed"
  | .cancelled => "Cancelled"

/-- The status with a name. -/
def ofName? (name : String) : Option JobStatus := all.find? fun status => status.name = name

/-- The job has ended. -/
def isDone : JobStatus → Bool
  | .succeeded | .failed | .cancelled => true
  | .unknown | .pending | .running => false

/-- The status of a job that ended so. -/
def ofOutcome : JobOutcome → JobStatus
  | .succeeded => .succeeded
  | .failed => .failed
  | .cancelled => .cancelled

/-- What the status of a job means for the task it carries out. -/
def task : JobStatus → TaskStatus
  | .unknown => .invalid
  | .pending => .pending
  | .running => .running
  | .succeeded => .succeeded
  | .failed => .failed
  | .cancelled => .stopped

end JobStatus

/-- The outcome of a job that only says whether it succeeded. -/
def JobOutcome.ofSuccess (success : Bool) : JobOutcome := if success then .succeeded else .failed

/-- The outcome of a job that may crash, which then has failed. -/
def JobOutcome.ofReply (reply : Reply JobOutcome) : JobOutcome := reply.getD .failed

/-- Jobs of a type, and where they stand. -/
structure Runner (α : Type) where
  /-- The number that was given last. -/
  lastId : UInt64
  /-- The jobs that have not begun, in order. -/
  queue : List (JobId × α)
  current : Option (JobId × α)
  statuses : Std.ExtTreeMap JobId JobStatus
  /-- No further job is begun. -/
  closed : Bool

namespace Runner

variable {α : Type}

/-- A runner without jobs. -/
def new : Runner α := ⟨0, [], none, ∅, false⟩

instance : Inhabited (Runner α) := ⟨new⟩

/-! ## For those who post -/

/-- Puts a job at the end of the queue. -/
def post (job : α) (runner : Runner α) : JobId × Runner α :=
  let id : JobId := ⟨runner.lastId + 1⟩
  (id,
    { runner with
      lastId := id.number
      queue := runner.queue ++ [(id, job)]
      statuses := runner.statuses.insert id .pending })

/-- Where a job stands. -/
def status (runner : Runner α) (id : JobId) : JobStatus :=
  runner.statuses.getD id .unknown

/-- What waiting for a job gives, once it gives something. -/
def awaited? (runner : Runner α) (id : JobId) : Option JobStatus :=
  let status := runner.status id
  if status.isDone ∨ status = .unknown then some status else none

/-- The jobs that have begun or are to begin, in order, and where they stand. -/
def jobs (runner : Runner α) : List (JobId × α × JobStatus) :=
  (runner.current.toList.map fun (id, job) => (id, job, .running)) ++
    runner.queue.map fun (id, job) => (id, job, .pending)

/-- A job has begun or is to begin. -/
def isRunning (runner : Runner α) : Bool := runner.current.isSome || !runner.queue.isEmpty

/-- Drops the jobs that have not begun, and says which. -/
def clear (runner : Runner α) : List JobId × Runner α :=
  let dropped := runner.queue.map Prod.fst
  (dropped,
    { runner with
      queue := []
      statuses := dropped.foldl (fun statuses id => statuses.insert id .cancelled)
        runner.statuses })

/-- Drops the jobs that have not begun, and begins no other. -/
def close (runner : Runner α) : Runner α := { runner.clear.2 with closed := true }

/-! ## For the worker -/

/-- Begins the first job of the queue. -/
def take (runner : Runner α) : Option (JobId × α) × Runner α :=
  match runner.queue with
  | [] => (none, runner)
  | job :: queue =>
    if runner.closed then (none, runner)
    else
      (some job,
        { runner with
          queue
          current := some job
          statuses := runner.statuses.insert job.1 .running })

/-- Reports how the job that was begun has ended. -/
def finish (id : JobId) (outcome : JobOutcome) (runner : Runner α) : Runner α :=
  { runner with
    current := none
    statuses := runner.statuses.insert id (.ofOutcome outcome) }

end Runner

end ScreenPilot
