import Mathlib.Data.List.Induction
import Mathlib.Data.Set.Card
import ScreenPilot.Engine.Notifier

/-!
# Who receives which events

Subscribers come and leave, take what they have received, and debug mode is switched, while events
are emitted. A subscriber that has not left has received the events that were published since it
came, in order and each once (`Notifier.fan_out`); what others do makes no difference to it.

What carries the proof is that a subscriber that has not left stays on the list, whatever is done
(`Keeps.apply`). One that has left may still be on the list, so the number of those on the list is
that of those present only after an event was published.
-/

set_option autoImplicit false

namespace ScreenPilot

/-- An event is for the subscribers, while debug mode is on or off. -/
inductive Notification.Concerns (debugMode : Bool) : Notification → Prop where
  | task (event : TaskEvent) : Concerns debugMode (.ofTask event)
  /-- The node has a focus, which may be null. -/
  | focused (event : NodeEvent) (focus : Json) (focused : event.focus = some focus) :
      Concerns debugMode (.ofNode event)
  | debugged (event : NodeEvent) (on : debugMode = true) : Concerns debugMode (.ofNode event)

namespace Notifier

theorem publishes_iff {notifier : Notifier} {event : Notification} :
    notifier.publishes event = true ↔ event.Concerns notifier.debugMode := by
  cases event with
  | ofTask event => exact ⟨fun _ => .task event, fun _ => rfl⟩
  | ofNode event =>
    rw [publishes, Bool.or_eq_true]
    constructor
    · rintro (focused | on)
      · obtain ⟨focus, focused⟩ := Option.isSome_iff_exists.mp focused
        exact .focused event focus focused
      · exact .debugged event on
    · intro concerns
      cases concerns with
      | focused _ focus focused => exact .inl (Option.isSome_iff_exists.mpr ⟨focus, focused⟩)
      | debugged _ on => exact .inr on

instance (debugMode : Bool) (event : Notification) : Decidable (event.Concerns debugMode) :=
  decidable_of_iff ((new debugMode).publishes event = true) publishes_iff

/-- The events that the subscriber has received and not yet taken. -/
def inbox (notifier : Notifier) (subscriber : Nat) : List Notification :=
  notifier.subscribers[subscriber]?.elim [] Subscriber.inbox

/-! ## What is done with a notifier -/

inductive Move where
  | subscribe
  | leave (subscriber : Nat)
  /-- A subscriber takes what it has received. -/
  | drain (subscriber : Nat)
  | setDebugMode (enabled : Bool)
  | emit (event : Notification)

namespace Move

def apply (notifier : Notifier) : Move → Notifier
  | .subscribe => notifier.subscribe.2
  | .leave subscriber => notifier.leave subscriber
  | .drain subscriber => (notifier.drain subscriber).2
  | .setDebugMode enabled => notifier.setDebugMode enabled
  | .emit event => notifier.emit event

/-- What a subscriber takes. -/
def taken (subscriber : Nat) (notifier : Notifier) : Move → List Notification
  | .drain other => if other = subscriber then (notifier.drain other).1.getD [] else []
  | _ => []

/-- Debug mode afterwards. -/
def debugMode (before : Bool) : Move → Bool
  | .setDebugMode enabled => enabled
  | _ => before

/-- What is published. -/
def published (debugMode : Bool) : Move → List Notification
  | .emit event => if event.Concerns debugMode then [event] else []
  | _ => []

end Move

/-- The notifier after moves. -/
def play (notifier : Notifier) (moves : List Move) : Notifier := moves.foldl Move.apply notifier

/-- What a subscriber has received after moves, with what it has taken. -/
def received (subscriber : Nat) : Notifier → List Move → List Notification
  | notifier, [] => notifier.inbox subscriber
  | notifier, move :: rest =>
    move.taken subscriber notifier ++ received subscriber (move.apply notifier) rest

/-! ## What is to be received -/

/-- How many have come; the next one has this number. -/
def arrivals (moves : List Move) : Nat :=
  moves.countP fun
    | .subscribe => true
    | _ => false

/-- A subscriber has come and has not left since. -/
def Stays (subscriber : Nat) (moves : List Move) : Prop :=
  ∃ before after, moves = before ++ .subscribe :: after ∧ arrivals before = subscriber ∧
    .leave subscriber ∉ after

/-- Debug mode after moves. -/
def debugAfter (debugMode : Bool) (moves : List Move) : Bool :=
  moves.foldl Move.debugMode debugMode

/-- What is published in moves, in order. -/
def publications : Bool → List Move → List Notification
  | _, [] => []
  | debugMode, move :: rest =>
    move.published debugMode ++ publications (move.debugMode debugMode) rest

variable {notifier other : Notifier} {subscriber : Nat} {mail : List Notification}

/-! ## One move -/

namespace Move

/-- Who comes. -/
def arriving : Move → List Subscriber
  | .subscribe => [.new]
  | _ => []

/-- What becomes of a subscriber. -/
def change (debugMode : Bool) (subscriber : Nat) (one : Subscriber) : Move → Subscriber
  | .leave other => if other = subscriber then { one with isPresent := false } else one
  | .drain other => if other = subscriber ∧ one.isPresent then { one with inbox := [] } else one
  | .emit event => if event.Concerns debugMode then one.send event else one
  | .subscribe | .setDebugMode _ => one

variable (move : Move) (notifier : Notifier) (subscriber : Nat)

theorem debugMode_apply : (move.apply notifier).debugMode = move.debugMode notifier.debugMode := by
  cases move with
  | emit event =>
    simp only [apply, Notifier.emit, debugMode]
    split <;> rfl
  | drain other =>
    simp only [apply, Notifier.drain, debugMode]
    split
    · split <;> rfl
    · rfl
  | _ => rfl

/-- **What a move makes of the subscribers, one by one.** -/
theorem getElem?_apply :
    (move.apply notifier).subscribers[subscriber]? =
      (notifier.subscribers ++ move.arriving)[subscriber]?.map
        (move.change notifier.debugMode subscriber ·) := by
  cases move with
  | subscribe => simp [apply, Notifier.subscribe, arriving, change]
  | setDebugMode enabled => simp [apply, Notifier.setDebugMode, arriving, change]
  | leave other => simp [apply, Notifier.leave, arriving, change, List.getElem?_modify]
  | drain other =>
    simp only [arriving, List.append_nil, change, apply, Notifier.drain]
    by_cases same : other = subscriber
    · subst same
      cases found : notifier.subscribers[other]? with
      | none => simp [found]
      | some one => cases present : one.isPresent <;> simp [found, present]
    · have kept : ∀ one : Subscriber, ¬ (other = subscriber ∧ one.isPresent = true) :=
        fun _ both => same both.1
      simp only [if_neg (kept _), Option.map_id']
      split
      · split
        · simp [same]
        · rfl
      · rfl
  | emit event =>
    simp only [arriving, List.append_nil, change, apply, Notifier.emit, publishes_iff]
    split
    · rw [List.getElem?_map]
    · rw [Option.map_id']

theorem taken_eq_nil (absent : notifier.subscribers[subscriber]? = none) :
    move.taken subscriber notifier = [] := by
  cases move with
  | drain other =>
    simp only [taken]
    split
    · rename_i same
      rw [Notifier.drain, same, absent]
      rfl
    · rfl
  | _ => rfl

theorem taken_congr {other : Notifier}
    (same : other.subscribers[subscriber]? = notifier.subscribers[subscriber]?) :
    move.taken subscriber other = move.taken subscriber notifier := by
  cases move with
  | drain drainer =>
    simp only [taken]
    split
    · rename_i isDrainer
      subst isDrainer
      simp only [Notifier.drain, same]
      cases notifier.subscribers[drainer]? with
      | none => rfl
      | some one => cases present : one.isPresent <;> simp [present]
    · rfl
  | _ => rfl

end Move

/-- The subscriber is present and on the list, with these events in its inbox. -/
def Keeps (notifier : Notifier) (subscriber : Nat) (mail : List Notification) : Prop :=
  notifier.subscribers[subscriber]? = some ⟨mail, true, true⟩

/-- **A subscriber that does not leave stays on the list**, and it has received what was
published. -/
theorem Keeps.apply (keeps : notifier.Keeps subscriber mail) {move : Move}
    (stays : move ≠ .leave subscriber) :
    ∃ mail', (move.apply notifier).Keeps subscriber mail' ∧
      move.taken subscriber notifier ++ mail' = mail ++ move.published notifier.debugMode := by
  have found : (notifier.subscribers ++ move.arriving)[subscriber]? = some ⟨mail, true, true⟩ := by
    rw [List.getElem?_append_left (List.getElem?_eq_some_iff.mp keeps).1]
    exact keeps
  simp only [Keeps, Move.getElem?_apply, found, Option.map_some]
  cases move with
  | leave leaver =>
    have other : leaver ≠ subscriber := fun same => stays (congrArg _ same)
    exact ⟨mail, congrArg some (if_neg other), (List.append_nil _).symm⟩
  | drain drainer =>
    by_cases same : drainer = subscriber
    · subst same
      refine ⟨[], by simp [Move.change], ?_⟩
      rw [Keeps] at keeps
      simp [Move.taken, Notifier.drain, keeps, Move.published]
    · refine ⟨mail, by simp [Move.change, same], ?_⟩
      simp [Move.taken, same, Move.published]
  | emit event =>
    simp only [Move.change, Move.published, Move.taken, List.nil_append]
    split
    · exact ⟨mail ++ [event], rfl, rfl⟩
    · exact ⟨mail, rfl, (List.append_nil _).symm⟩
  | subscribe | setDebugMode => exact ⟨mail, rfl, (List.append_nil _).symm⟩

theorem Keeps.play (keeps : notifier.Keeps subscriber mail) {moves : List Move}
    (stays : .leave subscriber ∉ moves) :
    ∃ mail', (notifier.play moves).Keeps subscriber mail' := by
  induction moves generalizing notifier mail with
  | nil => exact ⟨mail, keeps⟩
  | cons move moves ih =>
    rw [List.mem_cons, not_or] at stays
    obtain ⟨mail', keeps', _⟩ := keeps.apply (Ne.symm stays.1)
    exact ih keeps' stays.2

/-- It has received all that was published, in order. -/
theorem Keeps.received (keeps : notifier.Keeps subscriber mail) {moves : List Move}
    (stays : .leave subscriber ∉ moves) :
    received subscriber notifier moves = mail ++ publications notifier.debugMode moves := by
  induction moves generalizing notifier mail with
  | nil =>
    rw [Keeps] at keeps
    simp [Notifier.received, inbox, keeps, publications]
  | cons move moves ih =>
    rw [List.mem_cons, not_or] at stays
    obtain ⟨notThis, later⟩ := stays
    obtain ⟨mail', keeps', same⟩ := keeps.apply (Ne.symm notThis)
    rw [Notifier.received, ih keeps' later, ← List.append_assoc, same, Move.debugMode_apply,
      publications, List.append_assoc]

/-! ## Who is there -/

theorem length_apply (notifier : Notifier) (move : Move) :
    (move.apply notifier).subscribers.length =
      notifier.subscribers.length + move.arriving.length := by
  cases move with
  | subscribe => exact List.length_append
  | leave leaver => exact List.length_modify _ _ _
  | setDebugMode => rfl
  | drain drainer =>
    simp only [Move.apply, drain]
    split
    · split
      · exact List.length_modify _ _ _
      · rfl
    · rfl
  | emit event =>
    simp only [Move.apply, emit]
    split
    · exact List.length_map _
    · rfl

theorem play_append (notifier : Notifier) (before after : List Move) :
    notifier.play (before ++ after) = (notifier.play before).play after :=
  List.foldl_append

theorem debugMode_play (notifier : Notifier) (moves : List Move) :
    (notifier.play moves).debugMode = debugAfter notifier.debugMode moves := by
  induction moves generalizing notifier with
  | nil => rfl
  | cons move moves ih =>
    have rest := ih (move.apply notifier)
    rw [Move.debugMode_apply] at rest
    exact rest

theorem length_play (notifier : Notifier) (moves : List Move) :
    (notifier.play moves).subscribers.length = notifier.subscribers.length + arrivals moves := by
  induction moves generalizing notifier with
  | nil => rfl
  | cons move moves ih =>
    have rest := ih (move.apply notifier)
    rw [length_apply] at rest
    refine rest.trans ?_
    cases move <;> simp [arrivals, Move.arriving, Nat.add_assoc, Nat.add_comm]

/-- Before a subscriber has come it has taken nothing. -/
theorem received_of_absent {moves : List Move}
    (absent : notifier.subscribers.length + arrivals moves ≤ subscriber) (later : List Move) :
    received subscriber notifier (moves ++ later) =
      received subscriber (notifier.play moves) later := by
  induction moves generalizing notifier with
  | nil => rfl
  | cons move moves ih =>
    have none : notifier.subscribers[subscriber]? = none :=
      List.getElem?_eq_none (by omega)
    have stillAbsent : (move.apply notifier).subscribers.length + arrivals moves ≤ subscriber := by
      have played := length_play notifier (move :: moves)
      have later := length_play (move.apply notifier) moves
      rw [play, List.foldl_cons, ← play] at played
      omega
    rw [List.cons_append, received, Move.taken_eq_nil _ _ _ none, List.nil_append, ih stillAbsent]
    rfl

/-- A subscriber is there, and has not left. -/
def Seats (notifier : Notifier) (subscriber : Nat) : Prop :=
  ∃ one, notifier.subscribers[subscriber]? = some one ∧ one.isPresent = true

theorem seats_apply {move : Move} :
    (move.apply notifier).Seats subscriber ↔
      (move = .subscribe ∧ notifier.subscribers.length = subscriber) ∨
        (notifier.Seats subscriber ∧ move ≠ .leave subscriber) := by
  simp only [Seats, Move.getElem?_apply, Option.map_eq_some_iff]
  cases move with
  | subscribe =>
    simp only [Move.arriving, Move.change, true_and, ne_eq, reduceCtorEq, not_false_eq_true,
      and_true, exists_eq_right]
    rcases Nat.lt_trichotomy subscriber notifier.subscribers.length with less | same | more
    · rw [List.getElem?_append_left less]
      simp [Nat.ne_of_gt less]
    · subst same
      simp [Subscriber.new]
    · rw [List.getElem?_eq_none (by simpa using Nat.succ_le_of_lt more), List.getElem?_eq_none (by omega)]
      simp [Nat.ne_of_lt more]
  | leave leaver =>
    by_cases same : leaver = subscriber <;> simp [Move.arriving, Move.change, same]
  | drain drainer =>
    by_cases same : drainer = subscriber
    · subst same
      cases found : notifier.subscribers[drainer]? with
      | none => simp [Move.arriving, found]
      | some one => cases present : one.isPresent <;>
          simp [Move.arriving, Move.change, found, present]
    · simp [Move.arriving, Move.change, same]
  | setDebugMode enabled => simp [Move.arriving, Move.change]
  | emit event =>
    have same : ∀ one : Subscriber, (one.send event).isPresent = one.isPresent := by
      intro one
      rw [Subscriber.send]
      split
      · rfl
      · split <;> simp_all
    by_cases concerns : event.Concerns notifier.debugMode <;>
      simp [Move.arriving, Move.change, concerns, same]

theorem stays_concat {moves : List Move} {move : Move} :
    Stays subscriber (moves ++ [move]) ↔
      (move = .subscribe ∧ arrivals moves = subscriber) ∨
        (Stays subscriber moves ∧ move ≠ .leave subscriber) := by
  constructor
  · rintro ⟨before, after, same, came, stays⟩
    rcases List.eq_nil_or_concat' after with rfl | ⟨after, last, rfl⟩
    · obtain ⟨rfl, lastSame⟩ := List.append_inj' same rfl
      exact .inl ⟨List.singleton_inj.mp lastSame, came⟩
    · rw [← List.cons_append, ← List.append_assoc] at same
      obtain ⟨rfl, lastSame⟩ := List.append_inj' same rfl
      obtain rfl := List.singleton_inj.mp lastSame
      rw [List.mem_append, List.mem_singleton, not_or] at stays
      exact .inr ⟨⟨before, after, rfl, came, stays.1⟩, Ne.symm stays.2⟩
  · rintro (⟨rfl, came⟩ | ⟨⟨before, after, rfl, came, stays⟩, other⟩)
    · exact ⟨moves, [], rfl, came, List.not_mem_nil⟩
    · refine ⟨before, after ++ [move], by simp, came, ?_⟩
      simpa [stays] using Ne.symm other

/-- **Those that have not left are those whose sender still finds a receiver.** -/
theorem stays_iff (debugMode : Bool) {moves : List Move} :
    Stays subscriber moves ↔ ((new debugMode).play moves).Seats subscriber := by
  induction moves using List.reverseRecOn with
  | nil => simp [Stays, Seats, play, new]
  | append_singleton moves move ih =>
    rw [stays_concat, play_append]
    refine .trans ?_ seats_apply.symm
    rw [ih, length_play]
    simp [new]

/-- The next one to come is on the list. -/
theorem keeps_new (debugMode : Bool) (moves : List Move) :
    ((new debugMode).play moves).subscribe.2.Keeps (arrivals moves) [] := by
  have place : ((new debugMode).play moves).subscribers.length = arrivals moves :=
    (length_play _ _).trans (Nat.zero_add _)
  simp [Keeps, Notifier.subscribe, ← place, Subscriber.new]

/-- Those that have not left are on the list. -/
theorem Stays.keeps {debugMode : Bool} {moves : List Move} (stays : Stays subscriber moves) :
    ∃ mail, ((new debugMode).play moves).Keeps subscriber mail := by
  obtain ⟨before, after, rfl, rfl, stays⟩ := stays
  rw [play_append]
  exact (keeps_new debugMode before).play stays

/-- After an event was sent, the list holds those that are there. -/
theorem countP_send {subscribers : List Subscriber} (event : Notification)
    (listed : ∀ one ∈ subscribers, one.isPresent = true → one.isListed = true) :
    (subscribers.map (Subscriber.send event)).countP Subscriber.isListed =
      subscribers.countP Subscriber.isPresent := by
  rw [List.countP_map]
  refine List.countP_congr fun one member => ?_
  have listed := listed one member
  cases onList : one.isListed <;> cases present : one.isPresent <;>
    simp_all [Subscriber.send]

/-- The number of those that have not left. -/
theorem ncard_stays (debugMode : Bool) (moves : List Move) :
    Set.ncard {subscriber | Stays subscriber moves} =
      ((new debugMode).play moves).subscribers.countP Subscriber.isPresent := by
  have same : {subscriber | Stays subscriber moves} =
      ((((new debugMode).play moves).subscribers.findIdxs Subscriber.isPresent).toFinset :
        Set Nat) := by
    ext subscriber
    rw [Set.mem_ofPred_eq, List.coe_toFinset, Set.mem_ofPred_eq,
      List.mem_findIdxs_iff_exists_getElem_pos]
    refine (stays_iff debugMode).trans ?_
    simp [Seats, List.getElem?_eq_some_iff]
  rw [same, Set.ncard_coe_finset, List.toFinset_card_of_nodup List.nodup_findIdxs,
    List.length_findIdxs]

/-! ## What the others do -/

/-- What a subscriber receives depends on itself and on what is published. -/
theorem received_congr (size : notifier.subscribers.length = other.subscribers.length)
    (same : notifier.subscribers[subscriber]? = other.subscribers[subscriber]?)
    (mode : notifier.debugMode = other.debugMode) (moves : List Move) :
    received subscriber notifier moves = received subscriber other moves := by
  induction moves generalizing notifier other with
  | nil => rw [received, received, inbox, inbox, same]
  | cons move moves ih =>
    rw [received, received, Move.taken_congr _ _ _ same]
    congr 1
    refine ih ?_ ?_ ?_
    · rw [length_apply, length_apply, size]
    · rw [Move.getElem?_apply, Move.getElem?_apply, List.getElem?_append, List.getElem?_append,
        size, same, mode]
    · rw [Move.debugMode_apply, Move.debugMode_apply, mode]

/-- That another one leaves makes no difference. -/
theorem received_leave {leaver : Nat} (otherOne : leaver ≠ subscriber) (before after : List Move) :
    received subscriber notifier (before ++ .leave leaver :: after) =
      received subscriber notifier (before ++ after) := by
  induction before generalizing notifier with
  | nil =>
    refine received_congr (length_apply _ (.leave leaver)) ?_ rfl after
    simp [Move.apply, Notifier.leave, otherOne]
  | cons move before ih => simp only [List.cons_append, received, ih]

/-! ## All of it -/

/-- **Every event reaches those it is for, once.** A subscriber that has not left has received, in
order, what was published since it came: the events of tasks, those of nodes with a focus (a null
one too) and, while debug mode was on, those of the other nodes. That another one leaves changes
nothing of it. After an event was published the list holds those that have not left, and one that
is not published changes nothing. -/
theorem fan_out (debugMode : Bool) :
    (∀ before after, .leave (arrivals before) ∉ after →
      received (arrivals before) (new debugMode) (before ++ .subscribe :: after) =
        publications (debugAfter debugMode before) after) ∧
    (∀ subscriber leaver before after, leaver ≠ subscriber →
      received subscriber (new debugMode) (before ++ .leave leaver :: after) =
        received subscriber (new debugMode) (before ++ after)) ∧
    (∀ moves (event : Notification), event.Concerns (debugAfter debugMode moves) →
      ((new debugMode).play (moves ++ [.emit event])).count =
        Set.ncard {subscriber | Stays subscriber moves}) ∧
    ∀ moves (event : Notification), ¬ event.Concerns (debugAfter debugMode moves) →
      (new debugMode).play (moves ++ [.emit event]) = (new debugMode).play moves := by
  have mode : ∀ moves, ((new debugMode).play moves).debugMode = debugAfter debugMode moves :=
    debugMode_play (new debugMode)
  refine ⟨fun before after stays => ?_, fun _ _ before after otherOne =>
    received_leave otherOne before after, fun moves event concerns => ?_,
    fun moves event noConcern => ?_⟩
  · have absent : (new debugMode).subscribers.length + arrivals before ≤ arrivals before :=
      (Nat.zero_add _).le
    have sinceThen := (keeps_new debugMode before).received stays
    rw [received_of_absent absent, ← mode]
    exact sinceThen
  · have listed : ∀ one ∈ ((new debugMode).play moves).subscribers,
        one.isPresent = true → one.isListed = true := by
      intro one member present
      obtain ⟨subscriber, found⟩ := List.getElem?_of_mem member
      obtain ⟨mail, keeps⟩ := ((stays_iff _).mpr ⟨one, found, present⟩).keeps
      obtain rfl := Option.some.inj (found.symm.trans keeps)
      rfl
    rw [← mode, ← publishes_iff] at concerns
    rw [ncard_stays debugMode, play_append]
    exact (congrArg count (if_pos concerns)).trans (countP_send event listed)
  · rw [← mode, ← publishes_iff] at noConcern
    rw [play_append]
    exact if_neg noConcern

/-- An event of the action of a node. -/
def actionEvent (focus : Option Json) : Notification :=
  .ofNode ⟨.action, .starting, default, default, default, default, "A", focus⟩

/-- A null focus is a focus, and debug mode makes up for a missing one; the second of two
subscribers does not notice that the first one leaves. -/
theorem fan_out_null_focus :
    received 1 (new false)
        [.subscribe, .subscribe, .emit (actionEvent none), .emit (actionEvent (some .null)),
          .leave 0, .setDebugMode true, .emit (actionEvent none)] =
      [actionEvent (some .null), actionEvent none] ∧
    received 1 (new false)
        [.subscribe, .subscribe, .leave 0, .emit (actionEvent (some .null))] =
      received 1 (new false) [.subscribe, .subscribe, .emit (actionEvent (some .null))] ∧
    ((new false).play
        [.subscribe, .subscribe, .leave 0, .emit (actionEvent (some .null))]).count =
      Set.ncard {subscriber | Stays subscriber [.subscribe, .subscribe, .leave 0]} ∧
    (new false).play [.subscribe, .leave 0, .emit (actionEvent none)] =
      (new false).play [.subscribe, .leave 0] := by
  obtain ⟨receives, leaves, counts, suppresses⟩ := fan_out false
  refine ⟨?_, ?_, ?_, ?_⟩
  · refine (receives [.subscribe] _ ?_).trans rfl
    simp [arrivals]
  · exact leaves 1 0 [.subscribe, .subscribe] [.emit (actionEvent (some .null))] (by decide)
  · exact counts [.subscribe, .subscribe, .leave 0] _ (.focused _ .null rfl)
  · exact suppresses [.subscribe, .leave 0] (actionEvent none) (by decide)

end Notifier

end ScreenPilot
