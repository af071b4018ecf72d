import ScreenPilot.Proofs.Tasker.Books
import ScreenPilot.Proofs.Tasker.Undisturbed

/-!
# A tasker does not stay stopping

A tasker turns posts down for as long as it is stopping, and it is stopping until
its worker reaches a marker. Calls that stop drop the markers of one another, so
what keeps posts from being turned down for good is none of them alone: while a
tasker is stopping, some call that stops has yet to put its marker into the queue,
or a marker is in the queue, or the worker has just taken one (`Books.Answered`).

So when no such call is under way and the runner has nothing to do, the tasker is
not stopping, and welcomes posts again (`welcomes_of_idle`).
-/

set_option autoImplicit false

namespace ScreenPilot

open Activity

/-! ## Who lets posts pass -/

/-- A call that stops has told the tasker to turn posts down, and has yet to put its
marker into the queue. -/
def CallStage.isHalting : CallStage → Bool
  | .raised | .signalled | .dropped _ | .recording _ | .drawn _ => true
  | .aside | .asking | .located | .ready | .accepted _ | .called | .marked _ => false

namespace Books

/-- Someone will let posts pass. -/
inductive Lets (books : Books) : Prop where
  | call {index : Nat} (halting : (books.calls index).isHalting = true) : Lets books
  | queued {entry : JobId × TaskJob} (member : entry ∈ books.tasker.runner.queue)
      (isMarker : entry.2.kind = .marker) : Lets books
  | taken {id : JobId} {job : TaskJob} (holding : books.work = .holding id job .taken)
      (isMarker : job.kind = .marker) : Lets books

/-- While posts are turned down, someone will let them pass. -/
def Answered (books : Books) : Prop := books.tasker.stopping = true → books.Lets

variable {hazards : Hazards} {mover : Mover} {books books' : Books}

/-- Who lets posts pass does so later, if the queue and the worker's job are left
alone and each call that is halting still is. -/
theorem Lets.persists (lets : books.Lets)
    (queue : books'.tasker.runner.queue = books.tasker.runner.queue)
    (work : books'.work = books.work)
    (calls : ∀ index, (books.calls index).isHalting = true →
      (books'.calls index).isHalting = true) : books'.Lets := by
  cases lets with
  | call halting => exact .call (calls _ halting)
  | queued member isMarker =>
    rw [← queue] at member
    exact .queued member isMarker
  | taken holding isMarker => exact .taken (work.trans holding) isMarker

/-- A call moves on without letting go of what it has to do. -/
theorem halting_update {calls : Nat → CallStage} {index : Nat} {stage : CallStage}
    (stays : (calls index).isHalting = true → stage.isHalting = true) (other : Nat)
    (halting : (calls other).isHalting = true) :
    (Function.update calls index stage other).isHalting = true := by
  by_cases isIndex : other = index
  · subst isIndex
    rw [Function.update_self]
    exact stays halting
  · rw [Function.update_of_ne isIndex]
    exact halting

/-- The worker moves on with a job that it has not just taken, and the queue is left
alone. -/
theorem Lets.onward (lets : books.Lets) {tasker : Tasker} {stage : WorkStage}
    (queue : tasker.runner.queue = books.tasker.runner.queue)
    (begun : ∀ id job, books.work = .holding id job .taken → job.kind ≠ .marker) :
    Lets { books with tasker, work := stage } := by
  cases lets with
  | call halting => exact .call halting
  | queued member isMarker =>
    rw [← queue] at member
    exact .queued member isMarker
  | taken holding isMarker => exact absurd isMarker (begun _ _ holding)

/-- What the worker takes out of the queue it has in hand. -/
theorem Lets.take (lets : books.Lets) (free : books.work = .free) {id : JobId} {job : TaskJob}
    (taken : books.tasker.runner.take.1 = some (id, job)) :
    Lets { books with
      tasker := { books.tasker with runner := books.tasker.runner.take.2 }
      work := .holding id job .taken } := by
  cases lets with
  | call halting => exact .call halting
  | queued member isMarker =>
    rcases books.tasker.runner.take_cases with nothing | ⟨first, rest, queued, took⟩
    · rw [nothing] at taken
      cases taken
    · rw [took] at taken
      cases taken
      rw [queued, List.mem_cons] at member
      rcases member with rfl | later
      · exact .taken rfl isMarker
      · refine .queued ?_ isMarker
        show _ ∈ books.tasker.runner.take.2.queue
        rw [took]
        exact later
  | taken holding =>
    rw [free] at holding
    cases holding

/-- **While posts are turned down, each step leaves someone who will let them pass.** -/
theorem Answered.step (answered : books.Answered) (step : Step hazards mover books books') :
    books'.Answered := by
  intro stopping
  cases step with
  | stay => exact answered stopping
  | @begin _ index stage unborn first =>
    refine (answered stopping).persists rfl rfl (halting_update fun halting => ?_)
    rw [unborn] at halting
    cases halting
  | aside isAside aside =>
    refine (answered (aside.stopping ▸ stopping)).persists ?_ rfl fun _ halting => halting
    exact congrArg Runner.queue aside.runner
  | @call _ index tasker stage go =>
    generalize now : books.calls index = stage' at go
    -- a call that goes on halting is itself the one that will let posts pass
    have halts : stage.isHalting = true →
        Lets { books with tasker, calls := Function.update books.calls index stage } := by
      intro halting
      have own : (Function.update books.calls index stage index).isHalting = true := by
        rw [Function.update_self]
        exact halting
      exact .call own
    have others : stage'.isHalting = false → books.tasker.stopping = true →
        tasker.runner.queue = books.tasker.runner.queue →
        Lets { books with tasker, calls := Function.update books.calls index stage } := by
      intro notHalting stopping queue
      refine (answered stopping).persists queue rfl (halting_update fun halting => ?_)
      rw [now, notHalting] at halting
      cases halting
    cases go with
    | apart ongoing apart =>
      by_cases halting : stage.isHalting = true
      · exact halts halting
      · exact others (Bool.eq_false_iff.mpr halting) (apart.aside.stopping ▸ stopping)
          (congrArg Runner.queue apart.aside.runner)
    | locate | ready => exact others rfl stopping rfl
    | @accept _ entry kind overrides date isTask going =>
      rw [(Tasker.accept_registers going entry kind overrides date).stopping, going] at stopping
      cases stopping
    | raise | signal | clear | list | record | draw => exact halts rfl
    | mark =>
      refine .queued (List.mem_append_right _ List.mem_cons_self) rfl
  | @work _ tasker stage go =>
    generalize now : books.work = stage' at go
    cases go with
    | @apart id job stage' _ _ begun apart =>
      refine (answered (apart.aside.stopping ▸ stopping)).onward
        (congrArg Runner.queue apart.aside.runner) fun id job holding => ?_
      rw [now] at holding
      cases holding
      exact absurd rfl begun
    | take taken => exact (answered stopping).take now taken
    | reach => cases stopping
    | turn isTask | pass isTask =>
      refine (answered stopping).onward rfl fun id job holding => ?_
      rw [now] at holding
      cases holding
      exact isTask
    | close _ closes =>
      refine (answered stopping).onward rfl fun id job holding => ?_
      rw [now] at holding
      cases holding
      cases closes
    | strand | start | finish | leave =>
      refine (answered stopping).onward rfl fun id job holding => ?_
      rw [now] at holding
      cases holding
  | @crash _ _ _ holding =>
    refine (answered stopping).onward rfl fun id job taken => ?_
    rw [holding] at taken
    cases taken

end Books

/-! ## Posts that are welcome -/

namespace Tasker

/-- A post that lacks nothing is accepted. -/
structure Welcomes (tasker : Tasker) (entry : String) (overrides : Json) (kind : TaskKind) :
    Prop where
  /-- If it is not accepted, the checks have failed. -/
  accepts : Ensures .alone (tryPost entry overrides kind) tasker fun outcome final =>
    (∃ task, outcome = .ok task ∧ final.status task = .pending) ∨
    ∃ error, outcome = .error error ∧ checkReady.Ends .alone tasker (.error error) tasker
  /-- With a controller and a resource it may pass them. -/
  passes : tasker.controller.isSome → tasker.resource.isSome → ∃ task final,
    (tryPost entry overrides kind).Ends .alone tasker (.ok task) final ∧
      final.status task = .pending

/-- What only looks leaves the tasker as it is. -/
theorem looks_alone {α : Type} {good : α → Prop} {activity : Tasking α}
    (looks : activity.Obeys Looks (fun _ => good) ()) (tasker : Tasker) :
    Ensures .alone activity tasker fun _ final => final = tasker := by
  induction activity with
  | done value => exact ensures_done.mpr rfl
  | step change next ih =>
    refine ensures_step.mpr ?_
    rintro _ rfl -
    obtain ⟨_, same, looks⟩ := looks tasker
    rw [← same]
    exact ih tasker looks
  | ask question next ih => exact ensures_ask.mpr fun answer => ih answer (looks.2 answer)

/-- What is left of a post once the checks have passed and the overrides are read. -/
theorem decides_alone {tasker : Tasker} (going : tasker.stopping = false) (entry : String)
    (kind : TaskKind) (graph : Graph) :
    Ensures .alone (withEngine Engine.date >>= decision entry kind graph) tasker
      fun outcome final => ∃ task, outcome = .ok task ∧ final.status task = .pending := by
  refine ensures_ask.mpr fun now => ?_
  refine ensures_transact.mpr ?_
  rintro _ rfl -
  obtain ⟨job, -, -, isOk, -, enqueues⟩ := accept_enqueues going entry kind graph now
  exact ⟨job.task, isOk, enqueues.status_self⟩

/-- A tasker that is not stopping welcomes posts whose overrides can be read. -/
theorem welcomes_of_passing {tasker : Tasker} (going : tasker.stopping = false) (entry : String)
    {overrides : Json} (kind : TaskKind) {graph : Graph}
    (read : readOverrides tasker.defaults overrides = .ok graph) :
    tasker.Welcomes entry overrides kind where
  accepts := by
    intro outcome final ends
    obtain ⟨ready, middle, checked, rest⟩ := ends_bind.mp ends
    have same : middle = tasker := looks_alone checkReady_looks tasker ready middle checked
    rw [same] at checked rest
    cases ready with
    | error error =>
      cases rest
      exact .inr ⟨error, rfl, checked⟩
    | ok _ =>
      obtain ⟨defaults, middle, looked, rest⟩ := ends_bind.mp rest
      cases looked with
      | step others own ended =>
      cases others
      cases ended
      rw [read] at rest
      exact .inl (decides_alone going entry kind graph outcome final rest)
  passes := by
    intro hasController hasResource
    obtain ⟨controller, isController⟩ := Option.isSome_iff_exists.mp hasController
    obtain ⟨resource, isResource⟩ := Option.isSome_iff_exists.mp hasResource
    obtain ⟨job, -, -, isOk, -, enqueues⟩ := accept_enqueues going entry kind graph default
    have ready : checkReady.Ends .alone tasker (.ok ()) tasker :=
      (checkReady_ends isController isResource).imp (fun _ _ => id) fun _ _ _ => trivial
    have decides : (withEngine Engine.date >>= decision entry kind graph).Ends .alone tasker
        (tasker.accept entry kind graph default).1 (tasker.accept entry kind graph default).2 :=
      .ask (default : Timestamp) (.step rfl trivial (.done _ _))
    refine ⟨job.task, _, ends_bind.mpr ⟨_, _, ready, ?_⟩, enqueues.status_self⟩
    refine ends_bind.mpr ⟨_, _, .step rfl trivial (.done _ _), ?_⟩
    rw [← isOk, read]
    exact decides

end Tasker

namespace Session

/-- A call that stops and has told the tasker to turn posts down is under way. -/
theorem Tallies.halting {session : Session} {books : Books} (tallies : session.Tallies books)
    {index : Nat} (halting : (books.calls index).isHalting = true) :
    ∃ rest, session.calls[index]? = some (.stopping rest) ∧ ∀ marker, rest ≠ .done marker := by
  generalize now : books.calls index = stage at halting
  cases found : session.calls[index]? with
  | none =>
    rw [tallies.later index (List.getElem?_eq_none_iff.mp found)] at now
    cases now
    cases halting
  | some call =>
    have isAt := tallies.calls index call found
    rw [now] at isAt
    cases call with
    | posting rest =>
      have isPost := isAt.1
      cases stage with
      | asking | located | ready | accepted => cases halting
      | aside | called | raised | signalled | dropped | recording | drawn | marked => cases isPost
    | stopping rest =>
      refine ⟨rest, rfl, ?_⟩
      rintro marker rfl
      have isOver : stage = .marked marker := isAt
      rw [isOver] at halting
      cases halting
    | aside rest =>
      rw [isAt.1] at halting
      cases halting

theorem Tallies.not_halting {session : Session} {books : Books} (tallies : session.Tallies books)
    (unhalted : session.Unhalted) (index : Nat) : (books.calls index).isHalting = false := by
  refine Bool.eq_false_iff.mpr fun halting => ?_
  obtain ⟨rest, found, ongoing⟩ := tallies.halting halting
  obtain ⟨marker, isDone⟩ := unhalted index rest found
  exact ongoing marker isDone

/-- **When no call that stops is under way and the runner has nothing to do, the tasker
is not stopping, and welcomes every post whose overrides can be read.** -/
theorem welcomes_of_idle {settings : TaskerSettings} {defaults : NodeDefaults} {session : Session}
    (started : (start settings defaults).Leads session) (unhalted : session.Unhalted)
    (idle : session.tasker.isRunning = false) :
    session.tasker.stopping = false ∧
      ∀ entry overrides kind graph, kind ≠ .marker →
        Tasker.readOverrides session.tasker.defaults overrides = .ok graph →
        session.tasker.Welcomes entry overrides kind := by
  have passing : session.tasker.stopping = false := by
    by_contra stopping
    obtain ⟨books, tallies, sound, answered⟩ := Tallies.leads
      (fun _ _ _ => id) (tallies_start settings defaults)
      (Books.sound_start settings defaults) (fun _ books => books.Answered)
      (fun _ _ _ _ _ _ _ _ _ _ step _ answered => answered.step step) nofun started.minding
    rw [← tallies.tasker] at stopping idle
    have idle := Runner.isRunning_eq_false.mp idle
    cases answered ((Bool.not_eq_false _).mp stopping) with
    | @call index halting =>
      rw [tallies.not_halting unhalted index] at halting
      cases halting
    | queued member =>
      rw [idle.2] at member
      cases member
    | taken holding =>
      rw [sound.current holding] at idle
      cases idle.1
  exact ⟨passing, fun entry _ kind _ _ read => Tasker.welcomes_of_passing passing entry kind read⟩

/-- After a stop that dropped a task, and its marker, a task is welcome again. -/
theorem welcomes_after_drop : ∃ session marker, (start default default).Leads session ∧
    session.calls[2]? = some (.stopping (.done marker)) ∧ session.Unhalted ∧
    session.tasker.isRunning = false ∧ session.tasker.controller.isSome ∧
    session.tasker.resource.isSome ∧ session.tasker.stopping = false ∧
    session.tasker.Welcomes "A" .null .pipeline := by
  obtain ⟨session, task, marker, started, -, stopped, unhalted, idle, hasController, hasResource⟩ :=
    exists_dropped
  obtain ⟨passing, welcomes⟩ := welcomes_of_idle started.leads unhalted idle
  exact ⟨session, marker, started.leads, stopped, unhalted, idle, hasController, hasResource,
    passing, welcomes "A" .null .pipeline .empty nofun rfl⟩

end Session

end ScreenPilot
