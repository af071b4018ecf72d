import ScreenPilot.Proofs.Tasker.Standing

/-!
# The hazards of a session

What a session has to reckon with is what the operations other than posting and
stopping may do, and whether the graph of a task may be such that it cannot be had
(`Hazards`). Statements on records exclude one or the other; so they are about
sessions that lead to others by moves that are allowed (`Session.LeadsBy`).

The moves of a session that is put together step by step are all of one kind, which
takes place under any hazards (`Session.Orderly`).
-/

set_option autoImplicit false

namespace ScreenPilot

/-- What a session has to reckon with. -/
structure Hazards where
  /-- What another operation than posting and stopping may do in a step. -/
  aside : Tasker → Tasker → Prop
  /-- The graph of a task may be such that it cannot be had. -/
  crash : Prop

namespace Hazards

/-- Everything that happens in a session. -/
def any : Hazards := ⟨fun _ _ => True, True⟩

/-- The records of tasks may be dropped, and not all graphs can be had. -/
def lossy : Hazards := ⟨Tasker.Spares, True⟩

/-- Other operations leave the records of tasks alone, as those do that bind or replace
something (`Tasker.Sets.apart`), and all graphs can be had. -/
def none : Hazards := ⟨Tasker.Apart, False⟩

end Hazards

namespace Session

/-- The worker finds that a graph cannot be had. -/
def Crashes (before after : Session) : Prop :=
  ∃ resource next job, before.worker = .ask (Engine.Question.graph resource) next ∧
    before.tasker.runner.current = some job ∧
    after = { before with
      tasker := { before.tasker with runner := before.tasker.runner.finish job.1 .failed }
      worker := .done true }

/-- A move takes place under hazards. -/
structure Minds (hazards : Hazards) (mover : Mover) (before after : Session) : Prop where
  aside : ∀ index rest, mover = .call index → before.calls[index]? = some (.aside rest) →
    hazards.aside before.tasker after.tasker
  crash : mover = .worker → Crashes before after → hazards.crash

/-- A session leads to another one by moves that are allowed. -/
abbrev LeadsBy (allowed : Mover → Session → Session → Prop) : Session → Session → Prop :=
  Relation.ReflTransGen fun before after =>
    ∃ mover, Step mover before after ∧ before.tasker.Upward after.tasker ∧
      allowed mover before after

theorem LeadsBy.leads {allowed : Mover → Session → Session → Prop} {before after : Session}
    (leads : before.LeadsBy allowed after) : before.Leads after :=
  Relation.ReflTransGen.mono (fun _ _ ⟨mover, goes, upward, _⟩ => ⟨⟨mover, goes⟩, upward⟩) _ _ leads

theorem LeadsBy.imp {allowed wider : Mover → Session → Session → Prop} {before after : Session}
    (leads : before.LeadsBy allowed after)
    (wide : ∀ mover before after, allowed mover before after → wider mover before after) :
    before.LeadsBy wider after :=
  Relation.ReflTransGen.mono (fun _ _ ⟨mover, goes, upward, fits⟩ =>
    ⟨mover, goes, upward, wide _ _ _ fits⟩) _ _ leads

/-- Every move takes place under some hazards. -/
theorem minds_any (mover : Mover) (before after : Session) : Minds .any mover before after :=
  ⟨fun _ _ _ _ => trivial, fun _ _ => trivial⟩

/-- A session leads to another one under all hazards. -/
theorem Leads.minding {before after : Session} (leads : before.Leads after) :
    before.LeadsBy (Minds .any) after :=
  Relation.ReflTransGen.mono (fun _ _ ⟨⟨mover, goes⟩, upward⟩ =>
    ⟨mover, goes, upward, minds_any _ _ _⟩) _ _ leads

/-- The worker does not ask and has no task in hand, and other operations leave the
records alone. -/
structure Orderly (mover : Mover) (before : Session) (after : Session) : Prop where
  apart : ∀ index rest, mover = .call index → before.calls[index]? = some (.aside rest) →
    before.tasker.Apart after.tasker
  quiet : mover = .worker → ∀ question next, before.worker ≠ .ask question next
  taskless : mover = .worker → ∀ id job, before.tasker.runner.current = some (id, job) →
    job.kind = .marker

theorem orderly_begin (before after : Session) : Orderly .caller before after :=
  ⟨nofun, nofun, nofun⟩

/-- A call that posts or stops moves in an orderly way. -/
theorem orderly_call {index : Nat} {before after : Session} {call : Call}
    (found : before.calls[index]? = some call) (notAside : ∀ rest, call ≠ .aside rest) :
    Orderly (.call index) before after := by
  refine ⟨?_, nofun, nofun⟩
  rintro _ rest ⟨⟩ isAside
  rw [found] at isAside
  exact absurd (Option.some.inj isAside) (notAside rest)

/-- The worker moves in an orderly way when it does not ask and has no task in hand. -/
theorem orderly_work {before after : Session}
    (quiet : ∀ question next, before.worker ≠ .ask question next)
    (taskless : ∀ id job, before.tasker.runner.current = some (id, job) → job.kind = .marker) :
    Orderly .worker before after :=
  ⟨nofun, fun _ => quiet, fun _ => taskless⟩

theorem Orderly.minds {mover : Mover} {before after : Session}
    (orderly : Orderly mover before after) : Minds .none mover before after where
  aside := orderly.apart
  crash := by
    rintro isWorker ⟨resource, next, job, asks, -⟩
    exact orderly.quiet isWorker _ _ asks

/-- Nothing hinders an orderly move. -/
theorem Minds.imp {hazards more : Hazards} {mover : Mover} {before after : Session}
    (minds : Minds hazards mover before after)
    (aside : ∀ before after, hazards.aside before after → more.aside before after)
    (crash : hazards.crash → more.crash) : Minds more mover before after where
  aside := fun index rest moves found => aside _ _ (minds.aside index rest moves found)
  crash := fun isWorker crashes => crash (minds.crash isWorker crashes)

end Session

end ScreenPilot
