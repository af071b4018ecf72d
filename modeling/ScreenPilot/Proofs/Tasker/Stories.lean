import Mathlib.Data.List.Triplewise
import ScreenPilot.Proofs.Engine.Deliveries
import ScreenPilot.Proofs.Tasker.Errands

/-!
# The story of a task

The events of a task tell a story (`TaskJob.Story`): the task starts, its steps begin and
end one after the other, and the task ends. In a pipeline an action follows the hit that it
acts on. A task that was asked to stop before it began is told only to have stopped.

How much of the story has been told of a job depends on how far the worker has come with it
(`Duty.Told`), and every step of the worker tells what comes next (`Errand.Go.news`). What
an event says has ended is on record by then (`Notification.Vouched`), because each step
that announces an end finds what the step before it has recorded (`Duty.OnRecord`).
-/

set_option autoImplicit false

namespace ScreenPilot

open Activity

/-! ## Subscribers -/

namespace Notifier

/-- The subscriber is sent all events. -/
structure Serves (notifier : Notifier) (subscriber : Nat) : Prop where
  debugMode : notifier.debugMode = true
  listed : ∃ inbox, notifier.subscribers[subscriber]? = some ⟨inbox, true, true⟩

/-- Publishes events one after the other. -/
def publish (events : List Notification) (notifier : Notifier) : Notifier :=
  events.foldl (fun notifier event => notifier.emit event) notifier

variable {notifier : Notifier} {subscriber : Nat}

theorem Serves.emit (serves : notifier.Serves subscriber) (event : Notification) :
    (notifier.emit event).Serves subscriber ∧
      (notifier.emit event).inbox subscriber = notifier.inbox subscriber ++ [event] := by
  obtain ⟨debugMode, inbox, listed⟩ := serves
  have published : notifier.publishes event = true := by
    cases event with
    | ofTask => rfl
    | ofNode event => rw [publishes, debugMode, Bool.or_true]
  have sent : (notifier.emit event).subscribers[subscriber]? =
      some ⟨inbox ++ [event], true, true⟩ := by
    rw [Notifier.emit, if_pos published]
    show (notifier.subscribers.map _)[subscriber]? = _
    rw [List.getElem?_map, listed]
    rfl
  refine ⟨⟨?_, _, sent⟩, ?_⟩
  · rw [Notifier.emit, if_pos published]
    exact debugMode
  · rw [Notifier.inbox, Notifier.inbox, sent, listed]
    rfl

/-- **A subscriber receives all events in the order in which they are published.** -/
theorem Serves.publish (serves : notifier.Serves subscriber) (events : List Notification) :
    (notifier.publish events).Serves subscriber ∧
      (notifier.publish events).inbox subscriber = notifier.inbox subscriber ++ events := by
  induction events generalizing notifier with
  | nil => exact ⟨serves, (List.append_nil _).symm⟩
  | cons event events ih =>
    obtain ⟨serves, received⟩ := serves.emit event
    obtain ⟨serves, rest⟩ := ih serves
    exact ⟨serves, by rw [Notifier.publish, List.foldl_cons, ← Notifier.publish, rest, received,
      List.append_assoc, List.singleton_append]⟩

end Notifier

/-! ## Events -/

namespace Notification

/-- What an event says has ended is on record, and has ended in the way that it says. -/
def Vouched (cache : Cache) : Notification → Prop
  | .ofTask event => event.phase ≠ .starting → ∃ status : TaskStatus,
      cache.standing event.task = some (status, true) ∧ status.isDone = true ∧
        event.phase = .ofStatus status
  | .ofNode event => event.phase ≠ .starting →
      match event.kind with
      | .recognition => ∃ result, cache.reco? event.reco = some result ∧
        event.phase = .ofSuccess result.isHit
      | .action => ∃ result, cache.action? event.action = some result ∧
        event.phase = .ofSuccess result.success

/-- The events of a task follow each other without those of other tasks between them. -/
def Grouped (events : List Notification) : Prop :=
  events.Triplewise fun first between last =>
    first.task = last.task → between.task = first.task

/-- Events of one task may follow events of others. -/
theorem Grouped.append {earlier own : List Notification} {task : TaskId}
    (grouped : Grouped earlier) (others : ∀ event ∈ earlier, event.task ≠ task)
    (isOwn : ∀ event ∈ own, event.task = task) : Grouped (earlier ++ own) := by
  refine List.triplewise_append.mpr ⟨grouped, ?_, ?_, ?_⟩
  · refine List.triplewise_iff_getElem.mpr fun first between last _ _ _ _ => ?_
    rw [isOwn _ (List.getElem_mem _), isOwn _ (List.getElem_mem _)]
  · intro first isFirst
    refine List.pairwise_of_forall_mem_list fun between _ last isLast same => ?_
    exact absurd (same.trans (isOwn last isLast)) (others first isFirst)
  · intro last isLast
    refine List.pairwise_of_forall_mem_list fun first isFirst between _ same => ?_
    exact absurd (same.trans (isOwn last isLast)) (others first isFirst)

end Notification

/-- The events that tell that a step begins and how it ends. -/
def NodeEvent.pair (event : NodeEvent) (success : Bool) : List Notification :=
  [.ofNode event, .ofNode (event.closing success)]

/-! ## Stories -/

namespace TaskJob

variable (job : TaskJob)

/-- The event that says how far a task is. -/
def announces (phase : TaskPhase) : Notification := .ofTask ⟨phase, job.task, job.entry⟩

/-- The steps of a task, each of which begins and ends before the next. The attempt that
the last event says was a hit goes along; in a pipeline an action must be one on it. -/
inductive Pairs : Option RecoId → List Notification → Prop where
  | nil : Pairs none []
  | recognition {led : Option RecoId} {told : List Notification} {event : NodeEvent}
      (pairs : Pairs led told) (opens : event.Opens job.task .recognition) (isHit : Bool) :
      Pairs (if isHit then some event.reco else none) (told ++ event.pair isHit)
  | action {led : Option RecoId} {told : List Notification} {event : NodeEvent}
      (pairs : Pairs led told) (opens : event.Opens job.task .action)
      (follows : job.kind = .pipeline → led = some event.reco) (success : Bool) :
      Pairs none (told ++ event.pair success)

/-- What is told of a task from its start to its end, where it was asked to stop or not. -/
inductive Story (asked : Prop) : List Notification → Prop where
  /-- The task did not begin. -/
  | turned (isAsked : asked) : Story asked [job.announces .stopped]
  | whole {led : Option RecoId} {steps : List Notification} {phase : TaskPhase}
      (pairs : job.Pairs led steps) (ends : phase ≠ .starting) :
      Story asked (job.announces .starting :: steps ++ [job.announces phase])

variable {job}

theorem Story.imp {asked asked' : Prop} {told : List Notification} (story : job.Story asked told)
    (wider : asked → asked') : job.Story asked' told := by
  cases story with
  | turned isAsked => exact .turned (wider isAsked)
  | whole pairs ends => exact .whole pairs ends

theorem Story.ne_nil {asked : Prop} {told : List Notification} (story : job.Story asked told) :
    told ≠ [] := by
  cases story <;> exact nofun

end TaskJob

/-! ## What a run tells -/

/-- What an end is about to be announced of is on record. -/
def RunPhase.OnRecord (cache : Cache) : RunPhase → Prop
  | .recognized event result => cache.reco? event.reco = some result
  | .acted event result => cache.action? event.action = some result
  | _ => True

/-- What has been told of the steps of a run: those that have ended, and the one that the
run is in the middle of. -/
def Course.Told (job : TaskJob) (told : List Notification) (course : Course) : Prop :=
  match course.phase with
  | .recognizing event | .recognized event _ =>
    event.Opens job.task .recognition ∧
      ∃ led steps, job.Pairs led steps ∧ told = steps ++ [.ofNode event]
  | .acting event | .acted event _ =>
    event.Opens job.task .action ∧ ∃ led steps, job.Pairs led steps ∧
      (job.kind = .pipeline → led = some event.reco) ∧ told = steps ++ [.ofNode event]
  | _ => job.Pairs course.hand.lastHit told

/-- A step publishes events of a task, and vouches for them. -/
structure News (task : TaskId) (before after : Engine) (events : List Notification) : Prop where
  published : after.notifier = before.notifier.publish events
  own : ∀ event ∈ events, event.task = task
  vouched : ∀ event ∈ events, event.Vouched before.cache

section News

variable {task : TaskId} {before after : Engine}

theorem no_news (same : after.notifier = before.notifier) : News task before after [] :=
  ⟨same, nofun, nofun⟩

theorem news_of_emit {event : Notification} (emits : after.notifier = before.notifier.emit event)
    (own : event.task = task) (vouched : event.Vouched before.cache) :
    News task before after [event] where
  published := emits
  own := by
    rintro _ (_ | ⟨_, ⟨⟩⟩)
    exact own
  vouched := by
    rintro _ (_ | ⟨_, ⟨⟩⟩)
    exact vouched

end News

theorem RunPhase.OnRecord.persists {phase : RunPhase} {before after : Cache}
    (onRecord : phase.OnRecord before) (persists : before.Persists after) :
    phase.OnRecord after := by
  cases phase with
  | recognized => exact persists.recos _ _ onRecord
  | acted => exact persists.actions _ _ onRecord
  | calm | attempt | recognizing | action | acting | filed | noted => trivial

/-- **Each step of a run tells what comes next.** -/
theorem Course.Go.news {job : TaskJob} {course course' : Course} {before after : Engine}
    {told : List Notification} (go : Go job.task (job.kind = .pipeline) course before after course')
    (onRecord : course.phase.OnRecord before.cache) (isTold : course.Told job told) :
    ∃ events, News job.task before after events ∧ course'.phase.OnRecord after.cache ∧
      course'.Told job (told ++ events) := by
  -- most steps publish nothing
  have quiet : after.notifier = before.notifier → course'.phase.OnRecord after.cache →
      course'.Told job told → ∃ events, News job.task before after events ∧
        course'.phase.OnRecord after.cache ∧ course'.Told job (told ++ events) := by
    intro same onRecord told
    exact ⟨[], no_news same, onRecord, by rwa [List.append_nil]⟩
  cases go with
  | idle step => cases step <;> exact quiet rfl onRecord isTold
  | drawReco | giveReco | drawVisit | drawAction | fileVisit | noteVisit | listVisit =>
    exact quiet rfl trivial isTold
  | announceReco event opens =>
    refine ⟨[.ofNode event], news_of_emit rfl opens.task ?_, trivial, opens, _, _, isTold, rfl⟩
    exact fun ended => absurd opens.phase ended
  | @fileReco _ event result same =>
    refine quiet rfl ?_ isTold
    show (before.cache.putReco result).reco? event.reco = some result
    rw [Cache.reco?_putReco, ← same]
    exact Table.put_self _ _ _
  | @reportReco _ event result =>
    obtain ⟨opens, led, steps, pairs, rfl⟩ := isTold
    refine ⟨_, news_of_emit rfl opens.task fun _ => ?_, trivial, ?_⟩
    · simp only [NodeEvent.closing, opens.kind]
      exact ⟨result, onRecord, rfl⟩
    · rw [List.append_assoc]
      exact .recognition pairs opens result.isHit
  | announceAction event opens follows =>
    refine ⟨[.ofNode event], news_of_emit rfl opens.task ?_, trivial, opens, _, _, isTold,
      follows, rfl⟩
    exact fun ended => absurd opens.phase ended
  | @fileAction _ event result same =>
    refine quiet rfl ?_ isTold
    show (before.cache.putAction result).action? event.action = some result
    rw [Cache.action?_putAction, ← same]
    exact Table.put_self _ _ _
  | @reportAction _ event result =>
    obtain ⟨opens, led, steps, pairs, follows, rfl⟩ := isTold
    refine ⟨_, news_of_emit rfl opens.task fun _ => ?_, trivial, ?_⟩
    · simp only [NodeEvent.closing, opens.kind]
      exact ⟨result, onRecord, rfl⟩
    · rw [List.append_assoc]
      exact .action pairs opens follows result.success

/-! ## What the worker tells -/

/-- The task is asked to stop. -/
def Tasker.Asked (tasker : Tasker) (task : TaskId) : Prop :=
  tasker.engine.stopped.contains task = true

namespace Duty

/-- What has been told of a job that the worker has come so far with. -/
def Told (job : TaskJob) (asked : Prop) (own : List Notification) : Duty → Prop
  | .taken | .noted => own = []
  | .turned => own = [] ∧ asked
  -- the tasks that are accepted find everything bound
  | .stranded => False
  | .working course => ∃ steps, own = job.announces .starting :: steps ∧ course.Told job steps
  | .closing status => (own = [] ∧ status = .stopped ∧ asked) ∨
    ∃ led steps, own = job.announces .starting :: steps ∧ job.Pairs led steps
  | .told => job.Story asked own
  | .reached => own = [] ∧ job.kind = .marker

/-- What an end is about to be announced of is on record. -/
def OnRecord (job : TaskJob) (tasker : Tasker) : Duty → Prop
  | .working course => course.phase.OnRecord tasker.engine.cache
  | .closing status => status.isDone = true ∧ tasker.standing job.task = some (status, true)
  | _ => True

variable {job : TaskJob} {duty duty' : Duty} {before after : Tasker} {own : List Notification}

theorem Told.imp {asked asked' : Prop} (told : duty.Told job asked own) (wider : asked → asked') :
    duty.Told job asked' own := by
  cases duty with
  | turned => exact told.imp_right wider
  | closing => exact Or.imp_left (And.imp_right (And.imp_right wider)) told
  | told => exact TaskJob.Story.imp told wider
  | taken | stranded | noted | working | reached => exact told

/-- What is on record stays so while nobody changes it. -/
theorem OnRecord.persists (onRecord : duty.OnRecord job before)
    (persists : before.engine.cache.Persists after.engine.cache)
    (stays : ∀ status : TaskStatus, status.isDone = true →
      before.standing job.task = some (status, true) →
        after.standing job.task = some (status, true)) : duty.OnRecord job after := by
  cases duty with
  | working => exact RunPhase.OnRecord.persists onRecord persists
  | closing => exact ⟨onRecord.1, stays _ onRecord.1 onRecord.2⟩
  | taken | turned | stranded | noted | told | reached => trivial

theorem Closes.isDone {status : TaskStatus} (closes : duty.Closes status) :
    status.isDone = true := by
  cases closes with
  | turned | stranded => rfl
  | working _ done => exact done

/-- **Each step with a job tells what comes next.** -/
theorem Go.news (go : Go job duty before after duty')
    (bound : job.kind ≠ .marker → before.controller.isSome ∧ before.resource.isSome)
    (known : job.kind ≠ .marker → ∃ record, before.standing job.task = some record)
    (heeds : before.Asked job.task → after.Asked job.task) (onRecord : duty.OnRecord job before)
    (told : duty.Told job (before.Asked job.task) own) :
    ∃ events, News job.task before.engine after.engine events ∧ duty'.OnRecord job after ∧
      duty'.Told job (after.Asked job.task) (own ++ events) := by
  -- most steps publish nothing
  have quiet : after.engine.notifier = before.engine.notifier → duty'.OnRecord job after →
      duty'.Told job (after.Asked job.task) own → ∃ events,
        News job.task before.engine after.engine events ∧ duty'.OnRecord job after ∧
          duty'.Told job (after.Asked job.task) (own ++ events) := by
    intro same onRecord told
    exact ⟨[], no_news same, onRecord, by rwa [List.append_nil]⟩
  cases go with
  | look => exact quiet rfl onRecord told
  | reach isMarker => exact quiet rfl trivial ⟨told, isMarker⟩
  | turn isTask asked => exact quiet rfl trivial ⟨told, asked⟩
  | strand isTask unbound =>
    obtain ⟨hasController, hasResource⟩ := bound isTask
    rcases unbound with none | none
    · rw [none] at hasController
      cases hasController
    · rw [none] at hasResource
      cases hasResource
  | note => exact quiet rfl trivial told
  | announce =>
    cases (told : own = [])
    refine ⟨[job.announces .starting], ?_, trivial, _, rfl, .nil⟩
    exact news_of_emit rfl rfl fun ended => absurd rfl ended
  | work go =>
    obtain ⟨steps, rfl, told⟩ := told
    obtain ⟨events, news, onRecord, told⟩ := go.news onRecord told
    exact ⟨events, news, onRecord, _, rfl, told⟩
  | @close _ status isTask closes _ now =>
    obtain ⟨record, standing⟩ := known isTask
    refine quiet rfl ⟨closes.isDone, ?_⟩ ?_
    · rw [Tasker.standing_record, if_pos rfl, standing, closes.isDone]
      rfl
    · cases closes with
      | turned => exact .inl ⟨told.1, rfl, told.2⟩
      | stranded => exact told.elim
      | @working course _ calm =>
        obtain ⟨hand, phase⟩ := course
        cases calm
        obtain ⟨steps, same, pairs⟩ := told
        exact .inr ⟨_, steps, same, pairs⟩
  | @report status =>
    refine ⟨[job.announces (.ofStatus status)],
      news_of_emit rfl rfl fun _ => ⟨status, onRecord.2, onRecord.1, rfl⟩, trivial, ?_⟩
    rcases told with ⟨rfl, rfl, asked⟩ | ⟨led, steps, rfl, pairs⟩
    · exact .turned asked
    · refine .whole pairs ?_
      cases status <;> exact nofun

end Duty

namespace Errand

/-- What has been told when the worker has come so far. -/
def Told (tasker : Tasker) (heard : List Notification) : Errand → Prop
  | .free => Notification.Grouped heard
  | .holding _ job duty => ∃ earlier own, heard = earlier ++ own ∧
    Notification.Grouped earlier ∧ (∀ event ∈ earlier, event.task ≠ job.task) ∧
    (∀ event ∈ own, event.task = job.task) ∧ duty.Told job (tasker.Asked job.task) own

/-- What an end is about to be announced of is on record. -/
def OnRecord (tasker : Tasker) : Errand → Prop
  | .free => True
  | .holding _ job duty => duty.OnRecord job tasker

variable {errand errand' : Errand} {before after : Tasker} {heard : List Notification}

theorem Told.grouped (told : errand.Told before heard) : Notification.Grouped heard := by
  cases errand with
  | free => exact told
  | holding id job duty =>
    obtain ⟨earlier, own, rfl, grouped, others, isOwn, -⟩ := told
    exact grouped.append others isOwn

theorem Told.imp (told : errand.Told before heard)
    (heeds : ∀ task, before.Asked task → after.Asked task) : errand.Told after heard := by
  cases errand with
  | free => exact told
  | holding id job duty =>
    obtain ⟨earlier, own, same, grouped, others, isOwn, told⟩ := told
    exact ⟨earlier, own, same, grouped, others, isOwn, told.imp (heeds _)⟩

/-- **Each step of the worker tells what comes next**, if nothing has been told of a job
that it takes. -/
theorem Go.news (go : Go errand before after errand')
    (bound : ∀ id job duty, errand = .holding id job duty → job.kind ≠ .marker →
      before.controller.isSome ∧ before.resource.isSome)
    (known : ∀ id job duty, errand = .holding id job duty → job.kind ≠ .marker →
      ∃ record, before.standing job.task = some record)
    (fresh : ∀ id job, before.runner.take.1 = some (id, job) →
      ∀ event ∈ heard, event.task ≠ job.task)
    (heeds : ∀ task, before.Asked task → after.Asked task) (onRecord : errand.OnRecord before)
    (told : errand.Told before heard) :
    ∃ events, after.engine.notifier = before.engine.notifier.publish events ∧
      errand'.OnRecord after ∧ errand'.Told after (heard ++ events) ∧ ∀ event ∈ events,
        event.Vouched before.engine.cache ∧
          ∃ id job duty, errand = .holding id job duty ∧ event.task = job.task := by
  cases go with
  | idle => exact ⟨[], rfl, trivial, by rwa [List.append_nil], nofun⟩
  | @take _ id job taken =>
    exact ⟨[], rfl, trivial, ⟨heard, [], rfl, told, fresh id job taken, nofun, rfl⟩, nofun⟩
  | @within id job duty duty' _ _ go =>
    obtain ⟨earlier, own, rfl, grouped, others, isOwn, told⟩ := told
    obtain ⟨events, news, onRecord, told⟩ :=
      go.news (bound _ _ _ rfl) (known _ _ _ rfl) (heeds _) onRecord told
    refine ⟨events, news.published, onRecord, ?_, fun event member => ?_⟩
    · refine ⟨earlier, own ++ events, List.append_assoc _ _ _, grouped, others, ?_, told⟩
      exact fun event member => (List.mem_append.mp member).elim (isOwn event) (news.own event)
    · exact ⟨news.vouched event member, id, job, duty, rfl, news.own event member⟩
  | finish =>
    refine ⟨[], rfl, trivial, ?_, nofun⟩
    rw [List.append_nil]
    exact told.grouped

end Errand

end ScreenPilot
