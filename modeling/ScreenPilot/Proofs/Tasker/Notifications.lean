import ScreenPilot.Proofs.Run.Returns
import ScreenPilot.Proofs.Tasker.Starts
import ScreenPilot.Proofs.Tasker.Stories
import ScreenPilot.Proofs.Tasker.Unpassed

/-!
# What a subscriber hears

A subscriber that is there from the beginning hears of each task nothing or its whole story
(`Listening.hears_stories`). Whoever else posts, stops, binds or takes events, only the worker
publishes events, and only of the job in hand (`Listening.Chronicle.goes`). So events of one
task are not mixed with those of others, and when nothing is left to do, every story has
been told to its end.

Of a task nothing is heard exactly if its job was dropped out of the queue: a job that is
taken is told of, and of one that was dropped the worker knows nothing (`Listening.Fate`).
-/

set_option autoImplicit false

namespace ScreenPilot

open Activity

/-! ## Who announces something -/

namespace Books

/-- Only the worker goes on with the job in hand. -/
theorem Step.work_cases {hazards : Hazards} {mover : Mover} {books books' : Books}
    (step : Step hazards mover books books') : mover = .worker ∨ books'.work = books.work := by
  cases step with
  | stay | begin | aside | call => exact .inr rfl
  | work | crash => exact .inl rfl

end Books

namespace Session

/-- The worker has come so far, and no call that posts or stops announces anything. -/
structure Underway (session : Session) (errand : Errand) : Prop where
  hushed : ∀ call ∈ session.calls, call.Hushed
  obeys : session.worker.Obeys Errand.Go (fun _ _ => True) errand
  held : session.tasker.runner.current = errand.held

/-- An operation other than posting and stopping moves. -/
def IsAside (session : Session) (mover : Mover) : Prop :=
  ∃ index rest, mover = .call index ∧ session.calls[index]? = some (.aside rest)

/-- What one move makes of what the worker has in hand. -/
inductive Turns (mover : Mover) (before after : Session) (errand : Errand) : Errand → Prop where
  | work {errand' : Errand} (isOther : ¬ before.IsAside mover)
      (go : Errand.Go errand before.tasker after.tasker errand') :
      Turns mover before after errand errand'
  | hush (isOther : ¬ before.IsAside mover) (hushed : before.tasker.Hushed after.tasker) :
      Turns mover before after errand errand
  | aside (isAside : before.IsAside mover) : Turns mover before after errand errand

variable {mover : Mover} {session session' : Session} {errand : Errand}

theorem not_isAside (noCall : ∀ index, mover ≠ .call index) : ¬ session.IsAside mover := by
  rintro ⟨index, rest, isCall, -⟩
  exact noCall index isCall

/-- **In one move the worker goes on, or nothing is announced.** -/
theorem Underway.step (underway : session.Underway errand) (step : Step mover session session')
    (minds : Minds .none mover session session')
    (still : mover ≠ .worker →
      session'.tasker.runner.current = session.tasker.runner.current) :
    ∃ errand', session'.Underway errand' ∧ Turns mover session session' errand errand' := by
  obtain ⟨hushed, obeys, held⟩ := underway
  cases step with
  | begin begins =>
    refine ⟨errand, ⟨fun call member => ?_, obeys, held⟩, .hush (not_isAside nofun) (.refl _)⟩
    rcases List.mem_append.mp member with member | isLast
    · exact hushed call member
    · rw [List.mem_singleton.mp isLast]
      exact begins.hushed
  | @call _ index call call' tasker found moves =>
    obtain ⟨rest, announces⟩ := (hushed call (List.mem_of_getElem? found)).moves moves
    refine ⟨errand, ⟨fun other member => ?_, obeys, (still nofun).trans held⟩, ?_⟩
    · rcases List.mem_or_eq_of_mem_set member with member | rfl
      · exact hushed other member
      · exact rest
    · have isOther : (∀ rest, call ≠ .aside rest) → ¬ session.IsAside (.call index) := by
        rintro notAside ⟨_, rest, ⟨⟩, isAside⟩
        exact notAside rest (Option.some.inj (found.symm.trans isAside))
      cases call with
      | posting | stopping => exact .hush (isOther nofun) (announces nofun)
      | aside rest => exact .aside ⟨index, rest, rfl, found⟩
  | work moves =>
    obtain ⟨errand', go, obeys⟩ := obeys.moves moves
    exact ⟨errand', ⟨hushed, obeys, go.held held⟩, .work (not_isAside nofun) go⟩
  | serve patience idle free =>
    rw [free] at held
    cases errand with
    | free =>
      exact ⟨.free, ⟨hushed, Tasker.serve_errands patience, free⟩,
        .hush (not_isAside nofun) (.refl _)⟩
    | holding => cases held
  | crash asks current => exact (minds.crash rfl ⟨_, _, _, asks, current, rfl⟩).elim

end Session

/-! ## Listening -/

/-- A session and a subscriber that listens to it. -/
structure Listening (subscriber : Nat) where
  session : Session
  /-- The events that the subscriber has taken, oldest first. -/
  taken : List Notification

namespace Listening

variable {subscriber : Nat}

abbrev tasker (listening : Listening subscriber) : Tasker := listening.session.tasker

/-- All events that the subscriber has received, oldest first. -/
def heard (listening : Listening subscriber) : List Notification :=
  listening.taken ++ listening.tasker.engine.notifier.inbox subscriber

/-- What it has received of a task. -/
def heardOf (listening : Listening subscriber) (task : TaskId) : List Notification :=
  listening.heard.filter fun event => event.task = task

/-- Operations other than posting and stopping let the subscriber listen to all events, and
keep the records; the subscriber may take events. -/
structure Attends (mover : Mover) (before after : Listening subscriber) : Prop where
  serves : before.session.IsAside mover → after.tasker.engine.notifier.Serves subscriber
  heard : before.session.IsAside mover → after.heard = before.heard
  persists : before.session.IsAside mover →
    before.tasker.engine.cache.Persists after.tasker.engine.cache
  taken : ¬ before.session.IsAside mover → after.taken = before.taken

/-- A session goes on while a subscriber listens. All graphs can be had, and no records are
dropped. -/
def Goes (before after : Listening subscriber) : Prop :=
  ∃ mover, Session.Step mover before.session after.session ∧ before.tasker.Upward after.tasker ∧
    Session.Minds .none mover before.session after.session ∧ Attends mover before after

abbrev Leads : Listening subscriber → Listening subscriber → Prop := Relation.ReflTransGen Goes

/-- Between two moments a task was dropped out of the queue. -/
def Dropped (task : TaskId) (first last : Listening subscriber) : Prop :=
  ∃ still lost, Leads first still ∧ Goes still lost ∧ Leads lost last ∧
    still.tasker.status task = .pending ∧ lost.tasker.status task = .stopped

/-- At a moment between two others a job is in the queue. -/
def Queues (job : TaskJob) (first last : Listening subscriber) : Prop :=
  ∃ moment id, Leads first moment ∧ Leads moment last ∧ (id, job) ∈ moment.tasker.runner.queue

/-- What is true whenever a subscriber listens from the beginning. -/
structure Chronicle (listening : Listening subscriber) (books : Books) (errand : Errand) :
    Prop where
  tallies : listening.session.Tallies books
  sound : books.Sound
  complete : books.Complete
  underway : listening.session.Underway errand
  serves : listening.tasker.engine.notifier.Serves subscriber
  onRecord : errand.OnRecord listening.tasker
  told : errand.Told listening.tasker listening.heard
  /-- Only jobs that have begun are told of. -/
  begun : ∀ event ∈ listening.heard, ∃ id, listening.tasker.jobs[event.task]? = some id ∧
    listening.tasker.runner.Begun id

section Chronicle

variable {listening before after : Listening subscriber} {books books' : Books}
  {errand errand' : Errand} {task : TaskId} {id : JobId} {job : TaskJob} {duty : Duty}

namespace Chronicle

theorem kept (chronicle : listening.Chronicle books errand) : listening.tasker.Kept := by
  have kept : books.tasker.Kept := chronicle.sound.ledger.kept
  rwa [chronicle.tallies.tasker] at kept

/-- The job in hand is the current one. -/
theorem current (chronicle : listening.Chronicle books errand)
    (holding : errand = .holding id job duty) :
    listening.tasker.runner.current = some (id, job) := by
  rw [chronicle.underway.held, holding]
  rfl

theorem holding (chronicle : listening.Chronicle books errand)
    (holding : errand = .holding id job duty) : ∃ stage, books.work = .holding id job stage := by
  have held : books.tasker.runner.current = books.work.phase.held := chronicle.sound.ledger.held
  rw [chronicle.tallies.tasker, chronicle.current holding] at held
  cases work : books.work with
  | free =>
    rw [work] at held
    cases held
  | holding _ _ stage =>
    rw [work] at held
    cases held
    exact ⟨stage, rfl⟩

/-- The job in hand belongs to its task. -/
theorem carried (chronicle : listening.Chronicle books errand)
    (holding : errand = .holding id job duty) : listening.tasker.jobs[job.task]? = some id :=
  chronicle.kept.carried _ (Runner.mem_entries_of_current (chronicle.current holding))

theorem running (chronicle : listening.Chronicle books errand)
    (holding : errand = .holding id job duty) : listening.tasker.runner.status id = .running := by
  rw [chronicle.kept.ordered.running, chronicle.current holding]
  rfl

/-- A task in hand that is no marker was accepted. -/
theorem accepted (chronicle : listening.Chronicle books errand)
    (holding : errand = .holding id job duty) (isTask : job.kind ≠ .marker) :
    books.Accepted job.task := by
  obtain ⟨stage, work⟩ := chronicle.holding holding
  have member := Runner.mem_entries_of_current (chronicle.sound.current work)
  exact (chronicle.sound.kinds _ member).mpr isTask

/-- Nothing is heard of a task that is pending. -/
theorem unheard (chronicle : listening.Chronicle books errand)
    (pending : listening.tasker.status task = .pending) :
    ∀ event ∈ listening.heard, event.task ≠ task := by
  rintro event member rfl
  obtain ⟨id, carried, begun⟩ := chronicle.begun event member
  rw [Tasker.status_of_job carried, JobStatus.task_eq_pending] at pending
  exact begun.2 pending

end Chronicle

/-- What the subscriber is told by one move. -/
structure Tells (before after : Listening subscriber) (errand errand' : Errand)
    (events : List Notification) : Prop where
  serves : after.tasker.engine.notifier.Serves subscriber
  heard : after.heard = before.heard ++ events
  onRecord : errand'.OnRecord after.tasker
  told : errand'.Told after.tasker after.heard
  turn : errand' = errand ∨ Errand.Go errand before.tasker after.tasker errand' ∧
    after.tasker.engine.notifier = before.tasker.engine.notifier.publish events
  /-- Events are published of the job in hand, and what they say is on record. -/
  news : ∀ event ∈ events, event.Vouched before.tasker.engine.cache ∧
    ∃ id job duty, errand = .holding id job duty ∧ event.task = job.task

/-- How a chronicle goes on. -/
structure Continues (before after : Listening subscriber) (books books' : Books)
    (errand errand' : Errand) (events : List Notification) : Prop extends
    Tells before after errand errand' events where
  earlier : before.Chronicle books errand
  chronicle : after.Chronicle books' errand'
  step : ∃ mover, Books.Step .none mover books books'
  upward : books.tasker.Upward books'.tasker
  change : before.tasker.Change after.tasker
  heeds : ∀ task, before.tasker.Asked task → after.tasker.Asked task

theorem Chronicle.tells (chronicle : before.Chronicle books errand)
    {mover : Mover} (turns : before.session.Turns mover after.session errand errand')
    (attends : Attends mover before after)
    (heeds : ∀ task, before.tasker.Asked task → after.tasker.Asked task)
    (stays : ∀ task status, TaskStatus.isDone status = true →
      before.tasker.standing task = some (status, true) →
        after.tasker.standing task = some (status, true)) :
    ∃ events, Tells before after errand errand' events := by
  -- while others move, the errand is the same and nothing is published
  have rests : after.tasker.engine.notifier.Serves subscriber → after.heard = before.heard →
      before.tasker.engine.cache.Persists after.tasker.engine.cache →
      ∃ events, Tells before after errand errand events := by
    intro serves same persists
    refine ⟨[], serves, by rw [same, List.append_nil], ?_, ?_, .inl rfl, nofun⟩
    · have onRecord := chronicle.onRecord
      cases errand with
      | free => trivial
      | holding id job duty => exact Duty.OnRecord.persists onRecord persists (stays job.task)
    · rw [same]
      exact chronicle.told.imp heeds
  cases turns with
  | aside isAside =>
    exact rests (attends.serves isAside) (attends.heard isAside) (attends.persists isAside)
  | hush isOther hushed =>
    refine rests ?_ ?_ hushed.persists
    · rw [hushed.notifier]
      exact chronicle.serves
    · rw [heard, heard, attends.taken isOther, hushed.notifier]
  | work isOther go =>
    have bound := chronicle.complete.recorded.bound
    have tallied := chronicle.tallies.tasker
    obtain ⟨events, published, onRecord, told, news⟩ := go.news
      (fun id job duty holding isTask => by
        obtain ⟨stage, work⟩ := chronicle.holding holding
        exact tallied ▸ bound.of_task chronicle.sound work isTask)
      (fun id job duty holding isTask =>
        tallied ▸ chronicle.complete.present _ (chronicle.accepted holding isTask))
      (fun id job taken => chronicle.unheard (chronicle.kept.status_of_taken taken))
      heeds chronicle.onRecord chronicle.told
    obtain ⟨serves, received⟩ := chronicle.serves.publish events
    have isHeard : after.heard = before.heard ++ events := by
      rw [heard, heard, attends.taken isOther, published, received, List.append_assoc]
    refine ⟨events, ?_, isHeard, onRecord, isHeard ▸ told, .inr ⟨go, published⟩, news⟩
    rw [published]
    exact serves

/-- **Every move continues the chronicle.** -/
theorem Chronicle.goes (chronicle : before.Chronicle books errand) (goes : Goes before after) :
    ∃ books' errand' events, Continues before after books books' errand errand' events := by
  obtain ⟨mover, step, upward, minds, attends⟩ := goes
  have tallies := chronicle.tallies
  have sound := chronicle.sound
  obtain ⟨books', tallies', bookStep⟩ := tallies.step sound step minds
  have tallied : books.tasker = before.tasker := tallies.tasker
  have tallied' : books'.tasker = after.tasker := tallies'.tasker
  have booksUpward : books.tasker.Upward books'.tasker := by
    rw [tallied, tallied']
    exact upward
  have change : before.tasker.Change after.tasker := by
    rw [← tallied, ← tallied']
    exact sound.ledger.change bookStep.ledger booksUpward
  have sound' := sound.step bookStep booksUpward
  have still : mover ≠ .worker →
      after.tasker.runner.current = before.tasker.runner.current := by
    intro notWorker
    have held : books.tasker.runner.current = books.work.phase.held := sound.ledger.held
    have held' : books'.tasker.runner.current = books'.work.phase.held := sound'.ledger.held
    rw [bookStep.work_cases.resolve_left notWorker, ← held, tallied, tallied'] at held'
    exact held'
  obtain ⟨errand', underway, turns⟩ := chronicle.underway.step step minds still
  have heeds : ∀ task, before.tasker.Asked task → after.tasker.Asked task := by
    intro task asked
    rw [← tallied] at asked
    rw [← tallied']
    exact bookStep.asked_persists Books.spares_none asked
  have stays : ∀ task status, TaskStatus.isDone status = true →
      before.tasker.standing task = some (status, true) →
        after.tasker.standing task = some (status, true) := by
    intro task status done standing
    have goes := chronicle.complete.goes sound bookStep booksUpward task
    rw [tallied, tallied', standing] at goes
    exact goes.eq_of_done done
  obtain ⟨events, tells⟩ := chronicle.tells turns attends heeds stays
  have begun : ∀ event ∈ after.heard, ∃ id, after.tasker.jobs[event.task]? = some id ∧
      after.tasker.runner.Begun id := by
    intro event member
    obtain ⟨id, carried, begun⟩ : ∃ id, before.tasker.jobs[event.task]? = some id ∧
        before.tasker.runner.Begun id := by
      rw [tells.heard] at member
      rcases List.mem_append.mp member with old | new
      · exact chronicle.begun event old
      · obtain ⟨-, id, job, duty, holding, own⟩ := tells.news event new
        exact ⟨id, own ▸ chronicle.carried holding,
          Runner.begun_of_running (chronicle.running holding)⟩
    exact ⟨id, change.job_persists carried,
      change.begun_persists chronicle.kept.ordered upward begun⟩
  have chronicle' : after.Chronicle books' errand' :=
    ⟨tallies', sound', chronicle.complete.step sound bookStep booksUpward, underway, tells.serves,
      tells.onRecord, tells.told, begun⟩
  exact ⟨books', errand', events, tells, chronicle, chronicle', ⟨mover, bookStep⟩, booksUpward,
    change, heeds⟩

/-! ### What has become of a job -/

section Continues

variable {events : List Notification}
  (continues : Continues before after books books' errand errand' events)
include continues

/-- A job that is done stands where it stood. -/
theorem Continues.status_of_done (done : (before.tasker.runner.status id).isDone = true) :
    after.tasker.runner.status id = before.tasker.runner.status id := by
  obtain ⟨mover, step⟩ := continues.step
  have done' : (books.tasker.runner.status id).isDone = true := by
    rw [continues.earlier.tallies.tasker]
    exact done
  have same := continues.earlier.sound.status_of_done step continues.upward done'
  rw [continues.earlier.tallies.tasker, continues.chronicle.tallies.tasker] at same
  exact same

/-- Nothing is told of a task that does not run. -/
theorem Continues.heardOf_of_rests (carried : before.tasker.jobs[task]? = some id)
    (rests : before.tasker.runner.status id ≠ .running) :
    after.heardOf task = before.heardOf task := by
  rw [heardOf, continues.heard, List.filter_append, ← heardOf, List.append_right_eq_self,
    List.filter_eq_nil_iff]
  intro event member isTask
  obtain ⟨-, other, job, duty, holding, own⟩ := continues.news event member
  have carried' := continues.earlier.carried holding
  rw [← own, of_decide_eq_true isTask, carried] at carried'
  cases carried'
  exact rests (continues.earlier.running holding)

omit continues in
/-- What is heard of the job in hand is what has been told of it. -/
theorem Chronicle.heardOf_holding (chronicle : listening.Chronicle books errand)
    (holding : errand = .holding id job duty) :
    duty.Told job (listening.tasker.Asked job.task) (listening.heardOf job.task) := by
  obtain rfl := holding
  obtain ⟨earlier, own, same, -, others, isOwn, told⟩ := chronicle.told
  have none : earlier.filter (fun event => event.task = job.task) = [] :=
    List.filter_eq_nil_iff.mpr fun event member isTask =>
      others event member (of_decide_eq_true isTask)
  have all : own.filter (fun event => event.task = job.task) = own :=
    List.filter_eq_self.mpr fun event member => decide_eq_true (isOwn event member)
  rwa [heardOf, same, List.filter_append, none, all, List.nil_append]

/-- When the worker gives a job back, nothing is told. -/
theorem Continues.heard_of_finish {outcome : JobOutcome}
    (finish : after.tasker = { before.tasker with
      runner := before.tasker.runner.finish id outcome })
    (published : after.tasker.engine.notifier = before.tasker.engine.notifier.publish events) :
    after.heard = before.heard := by
  have received := (continues.earlier.serves.publish events).2
  rw [← published, finish, List.self_eq_append_right] at received
  rw [continues.heard, received, List.append_nil]

end Continues

/-- What has become of a job that was in the queue. -/
inductive Fate (posted : Listening subscriber) (id : JobId) (job : TaskJob)
    (now : Listening subscriber) (errand : Errand) : Prop where
  | waits (queued : (id, job) ∈ now.tasker.runner.queue)
  | inHand {duty : Duty} (holding : errand = .holding id job duty)
  | dropped (cancelled : now.tasker.runner.status id = .cancelled)
      (unheard : now.heardOf job.task = []) (drops : Dropped job.task posted now)
  | told (done : (now.tasker.runner.status id).isDone = true)
      (story : job.Story (now.tasker.Asked job.task) (now.heardOf job.task))

/-- A job that is dropped out of the queue is not heard of. -/
theorem Continues.heardOf_of_dropped {events : List Notification}
    (continues : Continues before after books books' errand errand' events)
    (pending : before.tasker.status task = .pending) : after.heardOf task = [] := by
  have kept := continues.earlier.kept
  obtain ⟨id, carried, -⟩ := Tasker.job_of_status kept (by rw [pending]; decide)
  have isPending := pending
  rw [Tasker.status_of_job carried, JobStatus.task_eq_pending] at isPending
  rw [continues.heardOf_of_rests carried (by rw [isPending]; exact nofun)]
  exact List.filter_eq_nil_iff.mpr fun event member isTask =>
    continues.earlier.unheard pending event member (of_decide_eq_true isTask)

/-- **Each move takes a job from the queue into the worker's hand or drops it, and a job
in hand comes to the end of its story.** -/
theorem Fate.goes {posted : Listening subscriber} (fate : Fate posted id job before errand)
    (isTask : job.kind ≠ .marker) {events : List Notification}
    (continues : Continues before after books books' errand errand' events)
    (leads : Leads posted before) (goes : Goes before after)
    (carried : before.tasker.jobs[job.task]? = some id) : Fate posted id job after errand' := by
  have carried' := continues.change.job_persists carried
  cases fate with
  | waits queued =>
    have isPending := (continues.earlier.kept.ordered.pending id).mpr (List.mem_map_of_mem queued)
    rcases continues.change.queued queued with still | taken | cancelled
    · exact .waits still
    · rw [continues.chronicle.underway.held] at taken
      cases errand' with
      | free => cases taken
      | holding =>
        cases taken
        exact .inHand rfl
    · have pending : before.tasker.status job.task = .pending := by
        rw [Tasker.status_of_job carried, isPending]
        rfl
      have stopped : after.tasker.status job.task = .stopped := by
        rw [Tasker.status_of_job carried', cancelled]
        rfl
      exact .dropped cancelled (continues.heardOf_of_dropped pending)
        ⟨before, after, leads, goes, .refl, pending, stopped⟩
  | @inHand duty holding =>
    rcases continues.turn with same | ⟨go, published⟩
    · exact .inHand (same.trans holding)
    · obtain rfl := holding
      rcases go.of_holding with ⟨duty', holding⟩ | ⟨isOver, outcome, finish⟩
      · exact .inHand holding
      · have told := continues.earlier.heardOf_holding rfl
        have heard := continues.heard_of_finish finish published
        have done : (after.tasker.runner.status id).isDone = true := by
          rw [finish]
          show ((before.tasker.runner.finish id outcome).status id).isDone = true
          rw [Runner.status_finish, if_pos rfl]
          exact Runner.isDone_ofOutcome outcome
        rcases isOver with rfl | rfl
        · refine .told done ?_
          rw [heardOf, heard]
          exact TaskJob.Story.imp told (continues.heeds _)
        · exact absurd told.2 isTask
  | dropped cancelled unheard drops =>
    have rests : before.tasker.runner.status id ≠ .running := by
      rw [cancelled]
      exact nofun
    refine .dropped ?_ ?_ ?_
    · rw [continues.status_of_done (by rw [cancelled]; rfl), cancelled]
    · rw [continues.heardOf_of_rests carried rests, unheard]
    · obtain ⟨still, lost, toStill, turn, fromLost, pending, stopped⟩ := drops
      exact ⟨still, lost, toStill, turn, fromLost.tail goes, pending, stopped⟩
  | told done story =>
    have rests : before.tasker.runner.status id ≠ .running := by
      intro running
      rw [running] at done
      cases done
    refine .told ?_ ?_
    · rw [continues.status_of_done done]
      exact done
    · rw [continues.heardOf_of_rests carried rests]
      exact story.imp (continues.heeds _)

end Chronicle

/-! ## Any number of moves -/

section Leads

variable {settings : TaskerSettings} {defaults : NodeDefaults}
  {first last posted lost : Listening subscriber} {books : Books} {errand : Errand}
  {task : TaskId} {id : JobId} {job : TaskJob}

/-- A subscriber begins to listen to a tasker that may have been prepared, but to which
nothing has been posted. -/
structure Fresh (settings : TaskerSettings) (defaults : NodeDefaults)
    (first : Listening subscriber) : Prop where
  prepared : (Tasker.new settings defaults).Apart first.tasker
  calls : first.session.calls = []
  idle : ∃ served, first.session.worker = .done served
  serves : first.tasker.engine.notifier.Serves subscriber
  unheard : first.heard = []

theorem Fresh.chronicle (fresh : Fresh settings defaults first) :
    first.Chronicle ⟨first.tasker, fun _ => .aside, .free⟩ .free := by
  obtain ⟨prepared, calls, ⟨served, idle⟩, serves, unheard⟩ := fresh
  have step : Books.Step .none (.call 0) ⟨.new settings defaults, fun _ => .aside, .free⟩
      ⟨first.tasker, fun _ => .aside, .free⟩ := .aside rfl prepared.aside prepared
  have upward := prepared.aside.upward
  have sound := Books.sound_start settings defaults
  have complete := Books.complete_start settings defaults
  refine ⟨⟨rfl, ?_, fun _ _ => rfl, .inl ⟨served, idle⟩⟩, sound.step step upward,
    complete.step sound step upward, ⟨?_, ?_, ?_⟩, serves, trivial, ?_, ?_⟩
  · simp [calls]
  · simp [calls]
  · rw [idle]
    trivial
  · exact congrArg Runner.current prepared.aside.runner
  · rw [unheard]
    exact .nil
  · simp [unheard]

/-- **A chronicle goes on for as long as the session does.** -/
theorem Chronicle.leads (chronicle : first.Chronicle books errand) (leads : Leads first last) :
    ∃ books errand, last.Chronicle books errand := by
  induction leads with
  | refl => exact ⟨books, errand, chronicle⟩
  | tail _ goes ih =>
    obtain ⟨books, errand, chronicle⟩ := ih
    obtain ⟨books', errand', events, continues⟩ := chronicle.goes goes
    exact ⟨books', errand', continues.chronicle⟩

/-- What becomes of a job that is in the queue. -/
theorem Chronicle.fate (chronicle : posted.Chronicle books errand)
    (queued : (id, job) ∈ posted.tasker.runner.queue) (isTask : job.kind ≠ .marker)
    (leads : Leads posted last) : ∃ books errand, last.Chronicle books errand ∧
      last.tasker.jobs[job.task]? = some id ∧ Fate posted id job last errand := by
  induction leads with
  | refl =>
    exact ⟨books, errand, chronicle, chronicle.kept.carried _ (List.mem_append_right _ queued),
      .waits queued⟩
  | tail leads goes ih =>
    obtain ⟨books, errand, chronicle, carried, fate⟩ := ih
    obtain ⟨books', errand', events, continues⟩ := chronicle.goes goes
    exact ⟨books', errand', continues.chronicle, continues.change.job_persists carried,
      fate.goes isTask continues leads goes carried⟩

/-- Of a task that is done nothing more is heard. -/
theorem Chronicle.heardOf_of_done (chronicle : lost.Chronicle books errand)
    (carried : lost.tasker.jobs[task]? = some id)
    (done : (lost.tasker.runner.status id).isDone = true) (leads : Leads lost last) :
    last.heardOf task = lost.heardOf task := by
  suffices ∃ books errand, last.Chronicle books errand ∧ last.tasker.jobs[task]? = some id ∧
      (last.tasker.runner.status id).isDone = true ∧ last.heardOf task = lost.heardOf task by
    obtain ⟨_, _, _, _, _, same⟩ := this
    exact same
  induction leads with
  | refl => exact ⟨books, errand, chronicle, carried, done, rfl⟩
  | tail _ goes ih =>
    obtain ⟨books, errand, chronicle, carried, done, same⟩ := ih
    obtain ⟨books', errand', events, continues⟩ := chronicle.goes goes
    refine ⟨books', errand', continues.chronicle, continues.change.job_persists carried, ?_, ?_⟩
    · rw [continues.status_of_done done]
      exact done
    · refine (continues.heardOf_of_rests carried fun running => ?_).trans same
      rw [running] at done
      cases done

/-- A task that was dropped is not heard of. -/
theorem Chronicle.heardOf_of_dropped (chronicle : first.Chronicle books errand)
    (dropped : Dropped task first last) : last.heardOf task = [] := by
  obtain ⟨still, lost, toStill, turn, fromLost, pending, stopped⟩ := dropped
  obtain ⟨books, errand, chronicle⟩ := chronicle.leads toStill
  obtain ⟨books', errand', events, continues⟩ := chronicle.goes turn
  have kept := continues.chronicle.kept
  obtain ⟨id, carried, -⟩ := Tasker.job_of_status kept (by rw [stopped]; decide)
  rw [Tasker.status_of_job carried, JobStatus.task_eq_stopped] at stopped
  rw [continues.chronicle.heardOf_of_done carried (by rw [stopped]; rfl) fromLost]
  exact continues.heardOf_of_dropped pending

/-- The job of a task that is accepted is in the queue at some moment. -/
theorem Fresh.queued (fresh : Fresh settings defaults first) (leads : Leads first last)
    (accepted : last.session.Accepted task) :
    ∃ job : TaskJob, job.task = task ∧ job.kind ≠ .marker ∧ Queues job first last := by
  induction leads with
  | refl =>
    obtain ⟨index, found⟩ := accepted
    simp [fresh.calls] at found
  | @tail between last leads goes ih =>
    obtain ⟨books, errand, chronicle⟩ := fresh.chronicle.leads leads
    obtain ⟨books', errand', events, continues⟩ := chronicle.goes goes
    obtain ⟨mover, step⟩ := continues.step
    have isAccepted := (continues.chronicle.tallies.accepted_iff task).mpr accepted
    have earlier : books.Accepted task → ∃ job : TaskJob, job.task = task ∧ job.kind ≠ .marker ∧
        Queues job first last := by
      intro accepted
      obtain ⟨job, isTask, notMarker, moment, id, before, after, queued⟩ :=
        ih ((chronicle.tallies.accepted_iff task).mp accepted)
      exact ⟨job, isTask, notMarker, moment, id, before, after.tail goes, queued⟩
    rcases chronicle.sound.cases step continues.upward with quiet | ⟨job, admits⟩
    · exact earlier ((quiet.accepted task).mp isAccepted)
    · rcases (admits.accepted task).mp isAccepted with ⟨isTask, notMarker⟩ | before
      · refine ⟨job, isTask, notMarker, _, books.tasker.runner.nextId, leads.tail goes, .refl, ?_⟩
        have runner := admits.registers.runner
        rw [continues.chronicle.tallies.tasker] at runner
        rw [runner]
        exact List.mem_append_right _ List.mem_cons_self
      · exact earlier before

end Leads

/-! ### A task that is heard of -/

section Undisturbed

variable {session : Session} {taken : List Notification}

end Undisturbed

/-- A tasker in debug mode to which everything is bound, and to which one subscribes. -/
def hearing : Tasker :=
  { ((Tasker.new default default).bindController 0).bindResource 0 with
    engine := { Engine.new true with notifier := ⟨[.new], true⟩ } }

/-- A node is recognized at once, and nobody else moves. -/
def swift : Surroundings Engine.outside Tasker Unit where
  meanwhile := id
  answer question before := RunContext.standstill.answer question (before.1.engine, before.2)

/-- The tasker with a task to recognize a node. -/
def queued : Tasker := (hearing.accept "A" .recognition .empty default).2

/-- The tasker when the worker has ended the task. -/
def spent : Tasker := (swift.carry (Tasker.serve 0) (queued, ())).2.1

end Listening

end ScreenPilot
