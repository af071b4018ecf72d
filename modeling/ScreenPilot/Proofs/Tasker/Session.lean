import ScreenPilot.Proofs.Activity.Moments
import ScreenPilot.Proofs.Activity.Phases
import ScreenPilot.Tasker.Execute

/-!
# Sessions

A session is a tasker with everyone who works on it: the calls of its
operations, of which any number are under way at once, and its worker. They move
in any order, one step or one answer at a time, and a call may begin at any
time. What is proved of all sessions that others lead to is proved of all
interleavings.

The worker is under way with one job at a time. It never gives up a job, so it
takes the next one only when none is current; and it outlives a graph that
cannot be had, which fails the job.

Counters only go up in the sessions considered: no session lasts so long that
one of them starts again.
-/

set_option autoImplicit false

namespace ScreenPilot

/-- A step that has nothing to do with the queue and with stopping. -/
structure Tasker.Aside (before after : Tasker) : Prop where
  stopping : after.stopping = before.stopping
  runner : after.runner = before.runner
  jobs : after.jobs = before.jobs
  tasks : after.tasks = before.tasks
  task : after.engine.ids.task = before.engine.ids.task

/-- No counter starts again. -/
structure Tasker.Upward (before after : Tasker) : Prop where
  job : before.runner.lastId ≤ after.runner.lastId
  task : before.engine.ids.task ≤ after.engine.ids.task

/-- What is left of a call of an operation of a tasker. -/
inductive Call where
  | posting (rest : Tasker.Tasking (Outcome TaskId))
  | stopping (rest : Tasker.Tasking TaskId)
  /-- A call of any other operation. -/
  | aside (rest : Tasker.Tasking Unit)

namespace Call

/-- A call at its beginning. -/
inductive Begins : Call → Prop where
  | post (entry : String) (overrides : Json) {kind : TaskKind} (isTask : kind ≠ .marker) :
      Begins (.posting (Tasker.tryPost entry overrides kind))
  | stop : Begins (.stopping Tasker.postStop)
  | aside {rest : Tasker.Tasking Unit} (steps : rest.Steps Tasker.Aside) : Begins (.aside rest)

/-- One move of a call. -/
inductive Moves : Call → Tasker → Call → Tasker → Prop where
  | posting {rest rest' : Tasker.Tasking (Outcome TaskId)} {before after : Tasker}
      (moves : rest.Moves before rest' after) : Moves (.posting rest) before (.posting rest') after
  | stopping {rest rest' : Tasker.Tasking TaskId} {before after : Tasker}
      (moves : rest.Moves before rest' after) :
      Moves (.stopping rest) before (.stopping rest') after
  | aside {rest rest' : Tasker.Tasking Unit} {before after : Tasker}
      (moves : rest.Moves before rest' after) : Moves (.aside rest) before (.aside rest') after

end Call

/-- A tasker and everyone who works on it. -/
structure Session where
  tasker : Tasker
  /-- The calls that have begun, in the order in which they did. -/
  calls : List Call
  /-- What is left of the worker's turn. -/
  worker : Tasker.Tasking Bool

/-- Who moves. -/
inductive Mover where
  | caller
  | call (index : Nat)
  | worker

namespace Session

/-- A tasker as it is made, which nobody works on yet. -/
def start (settings : TaskerSettings) (defaults : NodeDefaults) : Session :=
  ⟨.new settings defaults, [], .done false⟩

/-- One move of a session. -/
inductive Step : Mover → Session → Session → Prop where
  | begin {session : Session} {call : Call} (begins : call.Begins) :
      Step .caller session { session with calls := session.calls ++ [call] }
  | call {session : Session} {index : Nat} {call call' : Call} {tasker : Tasker}
      (found : session.calls[index]? = some call)
      (moves : call.Moves session.tasker call' tasker) :
      Step (.call index) session
        { session with tasker, calls := session.calls.set index call' }
  | work {session : Session} {worker : Tasker.Tasking Bool} {tasker : Tasker}
      (moves : session.worker.Moves session.tasker worker tasker) :
      Step .worker session { session with tasker, worker }
  /-- The worker begins its next turn, in which it follows every wait for so many
  rounds. -/
  | serve {session : Session} (patience : Nat) {served : Bool}
      (idle : session.worker = .done served) (free : session.tasker.runner.current = none) :
      Step .worker session { session with worker := Tasker.serve patience }
  /-- The graph of a task cannot be had. -/
  | crash {session : Session} {resource : Handle} {next : Graph → Tasker.Tasking Bool}
      {job : JobId × TaskJob} (asks : session.worker = .ask (Engine.Question.graph resource) next)
      (current : session.tasker.runner.current = some job) :
      Step .worker session
        { session with
          tasker := { session.tasker with
            runner := session.tasker.runner.finish job.1 .failed }
          worker := .done true }

/-- A session leads to another one by one move. -/
def Goes (before after : Session) : Prop :=
  (∃ mover, Step mover before after) ∧ before.tasker.Upward after.tasker

/-- A session leads to another one by any number of moves. -/
abbrev Leads : Session → Session → Prop := Relation.ReflTransGen Goes

/-- No call that stops is under way. -/
def Unhalted (session : Session) : Prop :=
  ∀ (index : Nat) (rest : Tasker.Tasking TaskId),
    session.calls[index]? = some (.stopping rest) → ∃ marker, rest = .done marker

/-! ## Moments -/

/-- A session leads to another one, and all the way something holds. -/
def LeadsWhile (holds : Session → Prop) : Session → Session → Prop :=
  Relation.ReflTransGen fun before after => before.Goes after ∧ holds after

theorem LeadsWhile.leads {holds : Session → Prop} {before after : Session}
    (leads : before.LeadsWhile holds after) : before.Leads after :=
  Relation.ReflTransGen.mono (fun _ _ goes => goes.1) _ _ leads

theorem LeadsWhile.imp {holds wider : Session → Prop} {before after : Session}
    (leads : before.LeadsWhile holds after) (wide : ∀ session, holds session → wider session) :
    before.LeadsWhile wider after :=
  Relation.ReflTransGen.mono (fun _ session goes => ⟨goes.1, wide session goes.2⟩) _ _ leads

/-- What holds of one session and not of one that it leads to was lost for good in
one move. -/
theorem Leads.exists_turn {first last : Session} (leads : first.Leads last)
    (holds : Session → Prop) (before : holds first) (after : ¬ holds last) :
    ∃ still lost, first.Leads still ∧ holds still ∧ still.Goes lost ∧ ¬ holds lost ∧
      lost.LeadsWhile (¬ holds ·) last :=
  ScreenPilot.exists_turn leads holds before after

end Session

end ScreenPilot
