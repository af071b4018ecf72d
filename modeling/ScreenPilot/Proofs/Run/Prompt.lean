import ScreenPilot.Proofs.Run.Heeding
import ScreenPilot.Proofs.Run.Stopping

/-!
# Runs that are asked to stop, to their end

A request to stop may come before a run or while one of its calls is open. From then on the
run does not act, captures no screen for a round, tries at most what is left of the
candidates of the round it is in, and nothing if it is in none, waits for a still screen
once at most, and records one visit at most (`Prompt`). If it had hit a node and not begun
to act on it, it records this visit as incomplete. `run_prompt` says so of every run and of
every such moment.

The rules of `Watch` are kept by each turn, so its events follow them (`Follows`), before the
request and after it; and what follows the rules after a request is little. The turn after
the one in which the request comes only looks and stops (`turn_halts`).
-/

set_option autoImplicit false

namespace ScreenPilot

open Activity Engine

/-! ## Events that follow the rules -/

/-- From one watch to another, events follow the rules. -/
inductive Follows (task : TaskId) (candidates : List String) (asked : Bool) :
    Watch → List RunEvent → Watch → Prop where
  | nil (watch : Watch) : Follows task candidates asked watch [] watch
  | step {watch between watch' : Watch} {before after : Engine} {events : List RunEvent}
      (step : watch.Step task before after between)
      (rest : Follows task candidates asked between events watch') :
      Follows task candidates asked watch (.step before after :: events) watch'
  | call {watch between watch' : Watch} {question : Question}
      {answer : Option (Answer question)} {events : List RunEvent} (open' : watch.entry = .none)
      (call : watch.Call candidates asked question answer between)
      (rest : Follows task candidates asked between events watch') :
      Follows task candidates asked watch (.call question answer :: events) watch'

/-- No step of a run withdraws a request to stop. -/
theorem Watch.Step.stopped {task : TaskId} {watch watch' : Watch} {before after : Engine}
    (step : watch.Step task before after watch') : after.stopped = before.stopped := by
  cases step with
  | quiet _ quiet => exact quiet.stopped
  | file | latest | list => rfl

/-- A call records nothing. -/
theorem Watch.Call.entry {candidates : List String} {asked : Bool} {watch watch' : Watch}
    {question : Question} {answer : Option (Answer question)}
    (call : watch.Call candidates asked question answer watch') : watch'.entry = watch.entry := by
  cases call <;> rfl

namespace Activity.Attends

variable {α : Type} {task : TaskId} {candidates : List String} {asked : Bool} {watch : Watch}
  {last : Bool → Watch → α → Prop} {handlers : Handlers outside Engine} {caller : Acting α}
  {engine final : Engine} {events : List RunEvent} {value : Option α}

/-- What is known where events end that follow the rules of an activity. A request to stop
has stayed. -/
def Leads (task : TaskId) (candidates : List String) (last : Bool → Watch → α → Prop)
    (asked : Bool) (watch : Watch) (events : List RunEvent) (value : Option α)
    (final : Engine) : Prop :=
  ∃ watch', Follows task candidates asked watch events watch' ∧
    (value = none → watch'.entry = .none) ∧
    (∀ result, value = some result → last asked watch' result) ∧
    (asked = true → final.stopped.contains task = true)

variable
  (keeps : ∀ question answer before after,
    (handlers question).Ends (heeding task) before answer after →
      before.stopped.contains task = true → after.stopped.contains task = true)
include keeps

/-- **The events of an activity follow the rules that it keeps.** -/
theorem leads (attends : caller.Attends task candidates last asked watch)
    (plays : caller.Plays handlers (heeding task) engine events value final)
    (finds : asked = true → engine.stopped.contains task = true) :
    Leads task candidates last asked watch events value final := by
  induction plays generalizing watch with
  | done value state => exact ⟨watch, .nil watch, nofun, by rintro _ ⟨⟩; exact attends, finds⟩
  | step others own rest ih =>
    obtain ⟨between, step, attends⟩ := attends _ fun same => others (finds same)
    obtain ⟨watch', follows, ends⟩ := ih attends fun same => by
      rw [step.stopped]
      exact others (finds same)
    exact ⟨watch', .step step follows, ends⟩
  | call ends rest ih =>
    obtain ⟨open', -, attends⟩ := attends
    obtain ⟨between, call, attends⟩ := attends _
    obtain ⟨watch', follows, closes⟩ :=
      ih (attends _ (.inl rfl)) fun same => keeps _ _ _ _ ends (finds same)
    exact ⟨watch', .call open' call follows, closes⟩
  | left ends =>
    obtain ⟨open', ⟨watch', call⟩, -⟩ := attends
    refine ⟨watch', .call open' call (.nil _), fun _ => call.entry.trans open', nofun, ?_⟩
    exact fun same => keeps _ _ _ _ ends (finds same)

/-- If the first step finds a request to stop, all that follow do. -/
theorem leads_of_found (attends : caller.Attends task candidates last true watch)
    {found after : Engine} (plays : caller.Plays handlers (heeding task) engine
      (.step found after :: events) value final)
    (asked : found.stopped.contains task = true) :
    Leads task candidates last true watch (.step found after :: events) value final := by
  cases plays with
  | step others own rest =>
    obtain ⟨between, step, attends⟩ := attends _ fun _ => asked
    obtain ⟨watch', follows, ends⟩ := leads keeps attends rest fun _ => by
      rw [step.stopped]
      exact asked
    exact ⟨watch', .step step follows, ends⟩

/-- **When a request to stop comes with a call, what was done before it follows the rules
without a request, and what is done after it the rules with one.** -/
theorem leads_of_call (attends : caller.Attends task candidates last false watch)
    {earlier later : List RunEvent} {question : Question} {answer : Option (Answer question)}
    {found after : Engine} (waits : question ≠ .now)
    (plays : caller.Plays handlers (heeding task) engine
      (earlier ++ .call question answer :: .step found after :: later) value final)
    (asked : found.stopped.contains task = true) :
    ∃ watch', Follows task candidates false watch (earlier ++ [.call question answer]) watch' ∧
      watch'.entry = .none ∧
      Leads task candidates last true watch' (.step found after :: later) value final := by
  induction earlier generalizing caller engine watch with
  | nil =>
    cases plays with
    | call ends rest =>
      obtain ⟨open', -, attends⟩ := attends
      obtain ⟨watch', call, attends⟩ := attends _
      refine ⟨watch', .call open' call (.nil _), call.entry.trans open', ?_⟩
      exact leads_of_found keeps (attends true (.inr ⟨rfl, waits⟩)) rest asked
  | cons event earlier ih =>
    rw [List.cons_append] at plays
    generalize split : earlier ++ .call question answer :: .step found after :: later = events
      at plays
    cases plays with
    | step others own rest =>
      obtain ⟨between, step, attends⟩ := attends _ nofun
      obtain ⟨watch', follows, leads⟩ := ih attends (split ▸ rest)
      exact ⟨watch', .step step follows, leads⟩
    | call ends rest =>
      obtain ⟨open', -, attends⟩ := attends
      obtain ⟨between, call, attends⟩ := attends _
      obtain ⟨watch', follows, leads⟩ := ih (attends _ (.inl rfl)) (split ▸ rest)
      exact ⟨watch', .call open' call follows, leads⟩
    | left => exact absurd split (by simp)

end Activity.Attends

/-! ## What events hold -/

/-- What is called, in order. -/
def calls : List RunEvent → List Question
  | [] => []
  | .step _ _ :: events => calls events
  | .call question _ :: events => question :: calls events

theorem calls_append (events rest : List RunEvent) :
    calls (events ++ rest) = calls events ++ calls rest := by
  induction events with
  | nil => rfl
  | cons event events ih =>
    cases event with
    | step => exact ih
    | call question answer => exact congrArg (question :: ·) ih

/-- The names of the nodes that are tried. -/
def attempts (questions : List Question) : List String := questions.filterMap Question.attempt?

/-- The names of the nodes that are tried after the last capture, when others were tried
before. -/
def inRound (tried : List String) : List Question → List String
  | [] => tried
  | question :: questions =>
    inRound (if question.isCapture then [] else tried ++ question.attempt?.toList) questions

/-- A call after which a round is open: it captured the screen for the round, or tried one of
its nodes and did not hit it. -/
inductive Opens : (question : Question) → Option (Answer question) → Prop where
  | seen {controller : Handle} {frame : Frame} :
      Opens (.capture controller) (some (.returned (some frame)))
  | missed {recognizer : Handle} {frame : Frame} {node : Node}
      {answer : Option (Reply (Option Recognition))}
      (missed : ∀ found, answer ≠ some (.returned (some found))) :
      Opens (.recognize recognizer frame node) answer

/-- A round is open where events end. -/
def RoundIsOpen (events : List RunEvent) : Prop :=
  ∃ before question answer, events = before ++ [.call question answer] ∧ Opens question answer

/-- The node of this name is hit. -/
def Hits (events : List RunEvent) (name : String) : Prop :=
  ∃ recognizer frame node found,
    Activity.Event.call (Question.recognize recognizer frame node)
      (some (Reply.returned (some found))) ∈ events ∧ node.name = name

/-- An event that leaves the visits on record alone. -/
def IsQuiet : RunEvent → Prop
  | .step before after => Watch.Quiet before after
  | .call _ _ => True

/-- The steps that record a visit. -/
def recording (task : TaskId) (detail : NodeDetail) (first second third : Engine) :
    List RunEvent :=
  [.step first { first with cache := first.cache.putNode detail },
    .step second { second with cache := second.cache.putLatest detail.name detail.id },
    .step third { third with cache := (third.cache.pushVisit task detail.id).2 }]

/-- At most one visit is recorded, and this is it. -/
inductive Records (task : TaskId) : List RunEvent → Option NodeDetail → Prop where
  | none {events : List RunEvent} (quiet : ∀ event ∈ events, IsQuiet event) :
      Records task events none
  | one {before after : List RunEvent} {detail : NodeDetail} {first second third : Engine}
      (quiet : ∀ event ∈ before, IsQuiet event) (still : ∀ event ∈ after, IsQuiet event) :
      Records task (before ++ recording task detail first second third ++ after) (some detail)

/-- A quiet event may come first. -/
theorem Records.cons {task : TaskId} {events : List RunEvent} {visit : Option NodeDetail}
    (records : Records task events visit) {event : RunEvent} (quiet : IsQuiet event) :
    Records task (event :: events) visit := by
  cases records with
  | none quiets => exact .none (List.forall_mem_cons.mpr ⟨quiet, quiets⟩)
  | one quiets still => exact .one (List.forall_mem_cons.mpr ⟨quiet, quiets⟩) still

/-- Quiet events may come last. -/
theorem Records.append {task : TaskId} {events rest : List RunEvent} {visit : Option NodeDetail}
    (records : Records task events visit) (quiet : ∀ event ∈ rest, IsQuiet event) :
    Records task (events ++ rest) visit := by
  cases records with
  | none quiets => exact .none (List.forall_mem_append.mpr ⟨quiets, quiet⟩)
  | one quiets still =>
    rw [List.append_assoc]
    exact .one quiets (List.forall_mem_append.mpr ⟨still, quiet⟩)

namespace Follows

variable {task : TaskId} {candidates : List String} {asked : Bool} {watch watch' : Watch}
  {events : List RunEvent}

/-- What is not called after a request to stop. -/
theorem asks_nothing (follows : Follows task candidates true watch events watch')
    (question : Question) (called : question ∈ calls events) :
    question.isAct = false ∧ question.isCapture = false := by
  induction follows with
  | nil => cases called
  | step _ _ ih => exact ih called
  | call _ call _ ih =>
    rcases List.mem_cons.mp called with rfl | later
    · cases call with
      | now | rest | recognize | awaitStill => exact ⟨rfl, rfl⟩
      | capture calm | act calm => cases calm
    · exact ih later

/-- Before a request to stop, waits do not count. -/
theorem waits_eq (follows : Follows task candidates false watch events watch') :
    watch'.waits = watch.waits := by
  induction follows with
  | nil => rfl
  | step step _ ih =>
    cases step with
    | quiet | file | latest | list => exact ih
  | call _ call _ ih =>
    cases call with
    | now | rest | awaitStill | act | capture | recognize => exact ih

/-- After a request to stop, a run waits once at most. -/
theorem waits_le (follows : Follows task candidates true watch events watch')
    (few : watch.waits ≤ 1) : (calls events).countP Question.isWait + watch.waits ≤ 1 := by
  induction follows with
  | nil => simpa [calls] using few
  | step step _ ih =>
    cases step with
    | quiet | file | latest | list => exact ih few
  | call _ call _ ih =>
    show (_ :: calls _).countP Question.isWait + _ ≤ 1
    rw [List.countP_cons]
    cases call with
    | now | rest | recognize => simpa [Question.isWait] using ih few
    | capture calm | act calm => cases calm
    | awaitStill first =>
      have later := ih (Nat.le_refl 1)
      rw [first rfl]
      simp only [Question.isWait, if_true] at later ⊢
      omega

/-- After a request to stop, only what is left of the round is tried. -/
theorem attempts_sublist (follows : Follows task candidates true watch events watch') :
    (attempts (calls events)).Sublist watch.left := by
  induction follows with
  | nil => exact List.nil_sublist _
  | step step _ ih =>
    cases step with
    | quiet | file | latest | list => exact ih
  | call _ call _ ih =>
    cases call with
    | now => exact ih
    | rest | awaitStill => exact List.Sublist.trans ih (List.nil_sublist _)
    | capture calm | act calm => cases calm
    | recognize isLeft =>
      rw [isLeft]
      exact List.sublist_append_of_sublist_right
        ((ih.trans (Watch.missedBy_sublist _ _)).cons_cons _)

/-- What was tried in the round comes before what is left of it. -/
theorem inRound_sublist (follows : Follows task candidates asked watch events watch')
    (tried : List String) (fits : (tried ++ watch.left).Sublist candidates) :
    (inRound tried (calls events) ++ watch'.left).Sublist candidates := by
  induction follows generalizing tried with
  | nil => exact fits
  | step step _ ih =>
    cases step with
    | quiet | file | latest | list => exact ih tried fits
  | call _ call _ ih =>
    cases call with
    | now => exact ih _ (by simpa [Question.attempt?, Question.isCapture] using fits)
    | rest | awaitStill | act =>
      refine ih _ (List.Sublist.trans ?_ fits)
      simp [Question.attempt?, Question.isCapture]
    | capture => exact ih _ (Watch.seenBy_sublist _ _)
    | recognize isLeft =>
      rw [isLeft] at fits
      refine ih _ (List.Sublist.trans ?_ fits)
      show (tried ++ [_] ++ _).Sublist _
      rw [List.append_assoc]
      refine List.Sublist.append_left ?_ tried
      exact List.sublist_append_of_sublist_right ((Watch.missedBy_sublist _ _).cons_cons _)

/-- Where a call is the last event, its rule is the last one. -/
theorem last_call {question : Question} {answer : Option (Answer question)}
    (follows : Follows task candidates asked watch (events ++ [.call question answer]) watch') :
    ∃ between : Watch, between.Call candidates asked question answer watch' := by
  induction events generalizing watch with
  | nil =>
    cases follows with
    | call _ call rest =>
      cases rest
      exact ⟨_, call⟩
  | cons event events ih =>
    rw [List.cons_append] at follows
    cases follows with
    | step _ rest => exact ih rest
    | call _ _ rest => exact ih rest

/-- Whether the action has begun. -/
theorem acted_eq (follows : Follows task candidates asked watch events watch') :
    watch'.acted = (watch.acted || (calls events).any Question.isAct) := by
  induction follows with
  | nil => exact (Bool.or_false _).symm
  | step step _ ih =>
    cases step with
    | quiet | file | latest | list => exact ih
  | call _ call _ ih =>
    show _ = (_ || (_ :: calls _).any Question.isAct)
    rw [List.any_cons]
    cases call with
    | now | rest | recognize | awaitStill | capture => exact ih
    | act => simpa [Question.isAct] using ih

/-- Where no round is open, nothing is left of one. -/
theorem left_eq_nil {question : Question} {answer : Option (Answer question)}
    (follows : Follows task candidates asked watch (events ++ [.call question answer]) watch')
    (waits : question ≠ .now) (none : ¬ RoundIsOpen (events ++ [.call question answer])) :
    watch'.left = [] := by
  obtain ⟨between, call⟩ := follows.last_call
  have closed : ¬ Opens question answer := fun opens => none ⟨_, _, _, rfl, opens⟩
  cases call with
  | now => exact absurd rfl waits
  | rest | awaitStill | act => rfl
  | @capture _ answer =>
    rcases answer with _ | (_ | _) | _
    · rfl
    · rfl
    · exact absurd .seen closed
    · rfl
  | @recognize _ _ _ answer =>
    rcases answer with _ | (_ | _) | _
    · exact absurd (.missed nofun) closed
    · exact absurd (.missed nofun) closed
    · rfl
    · exact absurd (.missed nofun) closed

/-- A node that was hit stays the one that was hit. -/
theorem hit_stays (follows : Follows task candidates asked watch events watch') {name : String}
    (isHit : watch.hit = some name) : watch'.hit = some name := by
  induction follows with
  | nil => exact isHit
  | step step _ ih =>
    cases step with
    | quiet | file | latest | list => exact ih isHit
  | call _ call _ ih =>
    cases call with
    | now | rest | awaitStill | act | capture => exact ih isHit
    | recognize _ missed => exact absurd (isHit.symm.trans missed) nofun

theorem hit_of_hits (follows : Follows task candidates asked watch events watch')
    {name : String} (hits : Hits events name) : watch'.hit = some name := by
  obtain ⟨recognizer, frame, node, found, member, named⟩ := hits
  induction follows with
  | nil => cases member
  | step _ _ ih =>
    rcases List.mem_cons.mp member with same | later
    · cases same
    · exact ih later
  | call _ call rest ih =>
    rcases List.mem_cons.mp member with same | later
    · cases same
      cases call with
      | recognize => exact rest.hit_stays (congrArg some named)
    · exact ih later

/-! ### The record of a visit -/

/-- Nothing follows once the visit is listed. -/
theorem of_listed (follows : Follows task candidates asked watch events watch')
    {detail : NodeDetail} (listed : watch.entry = .listed detail) :
    events = [] ∧ watch' = watch := by
  cases follows with
  | nil => exact ⟨rfl, rfl⟩
  | step step _ =>
    exfalso
    cases step with
    | quiet open' | file open' => exact nomatch listed.symm.trans open'
    | latest filed => exact nomatch listed.symm.trans filed
    | list latest => exact nomatch listed.symm.trans latest
  | call open' => exact nomatch listed.symm.trans open'

/-- A visit that is filed becomes the last one of its node and is listed next. -/
theorem of_filed (follows : Follows task candidates asked watch events watch')
    {detail : NodeDetail} (filed : watch.entry = .filed detail)
    (closed : watch'.entry = .none ∨ ∃ detail, watch'.entry = .listed detail) :
    watch' = { watch with entry := .listed detail } ∧ ∃ second third,
      events =
        [.step second { second with cache := second.cache.putLatest detail.name detail.id },
          .step third { third with cache := (third.cache.pushVisit task detail.id).2 }] := by
  cases follows with
  | nil =>
    rw [filed] at closed
    rcases closed with none | ⟨_, listed⟩
    · cases none
    · cases listed
  | call open' => exact nomatch filed.symm.trans open'
  | step step rest =>
    cases step with
    | quiet open' | file open' => exact nomatch filed.symm.trans open'
    | list latest => exact nomatch filed.symm.trans latest
    | latest here =>
      cases filed.symm.trans here
      cases rest with
      | nil =>
        rcases closed with none | ⟨_, listed⟩
        · cases none
        · cases listed
      | call open' => cases open'
      | step step rest =>
        cases step with
        | quiet open' | file open' => cases open'
        | latest filed => cases filed
        | list latest =>
          cases latest
          obtain ⟨rfl, rfl⟩ := rest.of_listed rfl
          exact ⟨rfl, _, _, rfl⟩

/-- **What follows the rules records one visit at most**, with nothing in between. -/
theorem records (follows : Follows task candidates asked watch events watch')
    (open' : watch.entry = .none) :
    (watch'.entry = .none → Records task events none) ∧
    ∀ detail, watch'.entry = .listed detail → Records task events (some detail) ∧
      (∀ name, watch'.hit = some name → detail.name = name) ∧
      (watch'.acted = false → detail.completed = false ∧ detail.action = .invalid) := by
  induction follows with
  | nil =>
    refine ⟨fun _ => .none (by simp), fun detail listed => ?_⟩
    exact nomatch listed.symm.trans open'
  | call _ call rest ih =>
    obtain ⟨nothing, one⟩ := ih (call.entry.trans open')
    refine ⟨fun none => (nothing none).cons trivial, fun detail listed => ?_⟩
    exact ⟨(one detail listed).1.cons trivial, (one detail listed).2⟩
  | step step rest ih =>
    cases step with
    | quiet _ quiet =>
      obtain ⟨nothing, one⟩ := ih open'
      refine ⟨fun none => (nothing none).cons quiet, fun detail listed => ?_⟩
      exact ⟨(one detail listed).1.cons quiet, (one detail listed).2⟩
    | file _ named honest =>
      refine ⟨fun none => ?_, fun detail listed => ?_⟩
      · obtain ⟨same, -⟩ := rest.of_filed rfl (.inl none)
        rw [same] at none
        cases none
      · obtain ⟨same, second, third, rfl⟩ := rest.of_filed rfl (.inr ⟨detail, listed⟩)
        rw [same] at listed
        cases listed
        rw [same]
        exact ⟨.one (List.forall_mem_nil _) (List.forall_mem_nil _), named, honest⟩
    | latest filed => exact nomatch filed.symm.trans open'
    | list latest => exact nomatch latest.symm.trans open'

end Follows

/-! ## Turns and runs that are asked to stop -/

/-- A run is asked to stop before it begins or while a call is open, other than one of the
clock; the step that comes next finds the request. -/
structure Moment (task : TaskId) (earlier later : List RunEvent) : Prop where
  comes : earlier = [] ∨ ∃ before question answer,
    earlier = before ++ [.call question answer] ∧ question ≠ Question.now
  found : ∃ found after rest, later = .step found after :: rest ∧
    found.stopped.contains task = true

/-- A moment after a turn is one of the turns that follow. -/
theorem Moment.later {task : TaskId} {events before later : List RunEvent}
    (moment : Moment task (events ++ before) later) : Moment task before later := by
  refine ⟨?_, moment.found⟩
  rcases List.eq_nil_or_concat' before with rfl | ⟨front, event, rfl⟩
  · exact .inl rfl
  · rcases moment.comes with none | ⟨before, question, answer, same, waits⟩
    · simp at none
    · rw [← List.append_assoc] at same
      obtain ⟨-, same⟩ := List.append_inj' same rfl
      cases same
      exact .inr ⟨front, question, answer, rfl, waits⟩

/-- What a run still does from such a moment on. Its candidates are those of the turn it is
in, of which these are the events so far. -/
structure Prompt (task : TaskId) (candidates : List String) (before later : List RunEvent)
    (hit : String → Prop) (isOpen : Prop) : Prop where
  noAction : ∀ question ∈ calls later, question.isAct = false
  noCapture : ∀ question ∈ calls later, question.isCapture = false
  /-- What is tried in the round before and after the moment are candidates in their order. -/
  attempts : (inRound [] (calls before) ++ ScreenPilot.attempts (calls later)).Sublist candidates
  /-- Where no round is open, nothing is tried: before the run, after a hit, between rounds. -/
  closed : ¬ RoundIsOpen before → ScreenPilot.attempts (calls later) = []
  waits : (calls later).countP Question.isWait ≤ 1
  /-- One visit is recorded at most. It is incomplete if the action has not begun. A node that
  was hit is recorded, unless the run goes on for longer than it is followed. -/
  records : ∃ visit, Records task later visit ∧
    ((calls before).any Question.isAct = false →
      ∀ detail ∈ visit, detail.completed = false ∧ detail.action = .invalid) ∧
    ∀ name, hit name → isOpen ∨ ∃ detail ∈ visit, detail.name = name

/-- A value is missing or open. -/
def LeftOpen {α : Type} (isOpen : α → Prop) (value : Option α) : Prop :=
  ∀ result ∈ value, isOpen result

namespace Prompt

variable {task : TaskId} {candidates : List String} {before later : List RunEvent}
  {hit : String → Prop} {isOpen : Prop}

theorem imp (prompt : Prompt task candidates before later hit isOpen) {hit' : String → Prop}
    {isOpen' : Prop} (hits : ∀ name, hit' name → hit name) (opens : isOpen → isOpen') :
    Prompt task candidates before later hit' isOpen' := by
  obtain ⟨visit, records, honest, recorded⟩ := prompt.records
  refine { prompt with records := ⟨visit, records, honest, fun name isHit => ?_⟩ }
  exact (recorded name (hits name isHit)).imp_left opens

/-- Steps that come later and leave the visits alone change nothing. -/
theorem append (prompt : Prompt task candidates before later hit isOpen) {rest : List RunEvent}
    (silent : calls rest = []) (quiet : ∀ event ∈ rest, IsQuiet event) :
    Prompt task candidates before (later ++ rest) hit isOpen := by
  have same : calls (later ++ rest) = calls later := by
    rw [calls_append, silent, List.append_nil]
  obtain ⟨visit, records, recorded⟩ := prompt.records
  constructor
  · rw [same]
    exact prompt.noAction
  · rw [same]
    exact prompt.noCapture
  · rw [same]
    exact prompt.attempts
  · rw [same]
    exact prompt.closed
  · rw [same]
    exact prompt.waits
  · exact ⟨visit, records.append quiet, recorded⟩

/-- What follows the rules before the moment and after it is prompt. -/
theorem of_follows {watch middle watch' : Watch} (fresh : watch.left = [] ∧
      watch.acted = false ∧ watch.waits = 0)
    (earlier : Follows task candidates false watch before middle) (open' : middle.entry = .none)
    (closed : ¬ RoundIsOpen before → middle.left = [])
    (follows : Follows task candidates true middle later watch')
    (closes : RunContext.Closes watch' isOpen) :
    Prompt task candidates before later (watch'.hit = some ·) isOpen := by
  have waited : middle.waits = 0 := earlier.waits_eq.trans fresh.2.2
  refine ⟨fun question called => (follows.asks_nothing question called).1,
    fun question called => (follows.asks_nothing question called).2, ?_, ?_, ?_, ?_⟩
  · have fits := earlier.inRound_sublist [] (by rw [fresh.1]; exact List.nil_sublist _)
    exact (follows.attempts_sublist.append_left _).trans fits
  · intro none
    have fits := follows.attempts_sublist
    rw [closed none] at fits
    exact List.sublist_nil.mp fits
  · have few := follows.waits_le (waited.trans_le (Nat.zero_le 1))
    rwa [waited] at few
  · obtain ⟨nothing, one⟩ := follows.records open'
    rcases closes with ⟨never, missed⟩ | ⟨detail, listed⟩
    · refine ⟨none, nothing never, fun _ => nofun, fun name isHit => .inl ?_⟩
      exact missed.resolve_left fun missed => nomatch isHit.symm.trans missed
    · obtain ⟨records, named, honest⟩ := one detail listed
      refine ⟨some detail, records, ?_, fun name isHit => .inr ⟨detail, rfl, named name isHit⟩⟩
      rintro idle _ ⟨⟩
      apply honest
      rw [follows.acted_eq, earlier.acted_eq, fresh.2.1, idle]
      rw [List.any_eq_false.mpr fun question called => ?_]
      · rfl
      · rw [(follows.asks_nothing question called).1]
        exact Bool.false_ne_true

end Prompt

/-! ### Turns -/

namespace RunContext

variable (context : RunContext)

/-- What the ports of a run do leaves the requests to stop as they are. -/
theorem idle_port (question : Question) : (context.port question).Steps IdleStep := by
  cases question with
  | recognize _ frame node => exact .map _ (idle_find context.recognizer frame node)
  | act _ hit node => exact .map _ (idle_actuate context.actuator hit node)
  | awaitStill _ wait node => exact .map _ (idle_awaitStill context.actuator _ _ wait node)
  | _ => exact .map _ (idle_ask _)

theorem port_keeps (question : Question) (answer : Option (Answer question))
    (before after : Engine)
    (ends : (context.port question).Ends (heeding context.task) before answer after)
    (asked : before.stopped.contains context.task = true) :
    after.stopped.contains context.task = true :=
  ensures_asked (ofAttempt (ofIdle (context.idle_port question))) asked _ _ ends

/-- A look is a step of its own. -/
theorem plays_looks {α : Type} {signal : StopSignal} {next : Bool → Acting α}
    {handlers : Handlers outside Engine} {setting : Setting Engine} {engine final : Engine}
    {events : List RunEvent} {value : Option α}
    (plays : (isStopped signal >>= next).Plays handlers setting engine events value final) :
    ∃ found rest, events = .step found found :: rest ∧ setting.others engine found ∧
      (next (found.stopped.contains signal.task)).Plays handlers setting found rest value
        final := by
  cases plays with
  | step others own rest => exact ⟨_, _, rfl, others, rest⟩

/-- A turn that begins when a stop is requested only looks. -/
theorem turn_halts {walk : Walk} {engine final : Engine} {events : List RunEvent}
    {turn : Option (Turn context.graph walk)}
    (plays : (context.ported.turn walk).Plays context.port (heeding context.task) engine events
      turn final)
    (asked : engine.stopped.contains context.task = true) :
    ∃ found, events = [.step found found] ∧
      turn = some (.finished walk.memory (.ended .stopped)) := by
  obtain ⟨found, rest, rfl, others, plays⟩ := plays_looks plays
  have halts : found.stopped.contains context.ported.signal.task = true := others asked
  rw [if_pos halts] at plays
  obtain ⟨rfl, same, -⟩ := plays_done plays
  exact ⟨found, rfl, same⟩

variable {context}

/-- The value of a turn or run that is missing or open, where the watch ends. -/
theorem closes_of_leads {α : Type} {isOpen : α → Prop} {value : Option α} {watch' : Watch}
    (none : value = none → watch'.entry = .none)
    (ends : ∀ result, value = some result → Closes watch' (isOpen result)) :
    Closes watch' (LeftOpen isOpen value) := by
  cases value with
  | none => exact .inl ⟨none rfl, .inr nofun⟩
  | some result =>
    refine (ends result rfl).imp_left fun ⟨open', missed⟩ => ⟨open', missed.imp_right ?_⟩
    rintro opens _ ⟨⟩
    exact opens

/-- **Within the turn in which the request comes, what is done after it is prompt.** -/
theorem turn_prompt {walk : Walk} {engine final : Engine} {earlier later : List RunEvent}
    {turn : Option (Turn context.graph walk)}
    (plays : (context.ported.turn walk).Plays context.port (heeding context.task) engine
      (earlier ++ later) turn final)
    (moment : Moment context.task earlier later) :
    Prompt context.task walk.candidates earlier later (Hits (earlier ++ later))
        (LeftOpen Turn.IsOpen turn) ∧
      final.stopped.contains context.task = true := by
  obtain ⟨found, after, rest, rfl, asked⟩ := moment.found
  rcases moment.comes with rfl | ⟨before, question, answer, rfl, waits⟩
  · obtain ⟨watch', follows, none, ends, stays⟩ := (context.attends_turn walk).leads_of_found
      context.port_keeps plays asked
    refine ⟨Prompt.imp (.of_follows ⟨rfl, rfl, rfl⟩ (.nil .fresh) rfl (fun _ => rfl) follows
      (closes_of_leads none ends)) ?_ id, stays rfl⟩
    exact fun name hits => follows.hit_of_hits hits
  · rw [List.append_assoc] at plays
    obtain ⟨middle, earlier, open', watch', follows, none, ends, stays⟩ :=
      (context.attends_turn walk).leads_of_call context.port_keeps waits plays asked
    refine ⟨Prompt.imp (.of_follows ⟨rfl, rfl, rfl⟩ earlier open'
      (earlier.left_eq_nil waits) follows
      (closes_of_leads none ends)) ?_ id, stays rfl⟩
    rintro name ⟨recognizer, frame, node, reco, member, named⟩
    rcases List.mem_append.mp member with member | member
    · exact follows.hit_stays (earlier.hit_of_hits ⟨_, _, _, _, member, named⟩)
    · exact follows.hit_of_hits ⟨_, _, _, _, member, named⟩

/-! ### Runs -/

/-- By turns, with these events, a run comes from one walk to another. -/
inductive Turns (context : RunContext) (first : Walk) (start : Engine) :
    List RunEvent → Walk → Engine → Prop where
  | start : Turns context first start [] first start
  | turn {past events : List RunEvent} {walk next : Walk} {engine final : Engine}
      {closer : next.Closer context.graph walk} (turns : Turns context first start past walk engine)
      (plays : (context.ported.turn walk).Plays context.port (heeding context.task) engine events
        (some (.next next closer)) final) :
      Turns context first start (past ++ events) next final

/-- A turn may come first. -/
theorem Turns.head {first second walk : Walk} {start middle engine : Engine}
    {past events : List RunEvent} {closer : second.Closer context.graph first}
    (plays : (context.ported.turn first).Plays context.port (heeding context.task) start events
      (some (.next second closer)) middle)
    (turns : context.Turns second middle past walk engine) :
    context.Turns first start (events ++ past) walk engine := by
  induction turns with
  | start =>
    rw [List.append_nil]
    exact .turn .start plays
  | turn _ plays ih =>
    rw [← List.append_assoc]
    exact .turn ih plays

/-- What follows a turn. -/
def afterTurn (context : RunContext) {walk : Walk} :
    Turn context.graph walk → Acting (Memory × RunResult)
  | .finished memory result => .done (memory, result)
  | .next walk' _ => context.walkOn walk'

theorem walkOn_eq (context : RunContext) (walk : Walk) :
    context.walkOn walk = context.turn walk >>= context.afterTurn := by
  rw [walkOn]
  refine congrArg _ (funext fun turn => ?_)
  cases turn <;> rfl

/-- A walk that goes on when a stop is requested only looks. -/
theorem walkOn_halts {walk : Walk} {engine final : Engine} {events : List RunEvent}
    {value : Option (Memory × RunResult)}
    (plays : (context.ported.walkOn walk).Plays context.port (heeding context.task) engine events
      value final)
    (asked : engine.stopped.contains context.task = true) :
    ∃ found, events = [.step found found] := by
  rw [walkOn_eq] at plays
  rcases plays_bind plays with ⟨events, rest, turn, middle, rfl, turned, nexts⟩ | ⟨-, turned⟩
  · obtain ⟨found, rfl, same⟩ := context.turn_halts turned asked
    cases same
    cases nexts
    exact ⟨found, rfl⟩
  · obtain ⟨found, -, same⟩ := context.turn_halts turned asked
    cases same

/-- In the turn in which the request comes, and in the look of the turn that follows, what is
done is prompt. -/
theorem prompt_of_turn {walk : Walk} {engine middle final : Engine}
    {earlier later rest : List RunEvent} {turn : Turn context.graph walk}
    {value : Option (Memory × RunResult)}
    (turned : (context.ported.turn walk).Plays context.port (heeding context.task) engine
      (earlier ++ later) (some turn) middle)
    (moment : Moment context.task earlier later)
    (nexts : (context.ported.afterTurn turn).Plays context.port (heeding context.task) middle rest
      value final) :
    Prompt context.task walk.candidates earlier (later ++ rest)
      (Hits (earlier ++ (later ++ rest))) (LeftOpen (·.2 = .unfinished) value) := by
  obtain ⟨prompt, asked⟩ := turn_prompt turned moment
  cases turn with
  | finished memory result =>
    cases nexts
    rw [List.append_nil]
    refine prompt.imp (fun _ => id) ?_
    rintro opens _ ⟨⟩
    obtain ⟨_, same⟩ := opens _ rfl
    cases same
    rfl
  | next walk' closer =>
    obtain ⟨found, rfl⟩ := walkOn_halts nexts asked
    refine (prompt.append rfl ?_).imp ?_ ?_
    · intro event member
      rw [List.mem_singleton.mp member]
      exact ⟨rfl, rfl, rfl, rfl⟩
    · rintro name ⟨recognizer, frame, node, reco, member, named⟩
      refine ⟨recognizer, frame, node, reco, ?_, named⟩
      simpa using member
    · intro opens
      obtain ⟨_, same⟩ := opens _ rfl
      cases same

/-- **Wherever the request comes, what a walk does after it is prompt.** -/
theorem walkOn_prompt {walk : Walk} {engine final : Engine} {earlier later : List RunEvent}
    {value : Option (Memory × RunResult)}
    (plays : (context.ported.walkOn walk).Plays context.port (heeding context.task) engine
      (earlier ++ later) value final)
    (moment : Moment context.task earlier later) :
    ∃ past before current middle, earlier = past ++ before ∧
      context.Turns walk engine past current middle ∧
      Prompt context.task current.candidates before later (Hits (before ++ later))
        (LeftOpen (·.2 = .unfinished) value) := by
  rw [walkOn_eq] at plays
  rcases plays_bind plays with ⟨events, rest, turn, middle, split, turned, nexts⟩ | ⟨rfl, turned⟩
  · clear plays
    obtain ⟨found, after, tail, rfl, asked⟩ := moment.found
    have either : (∃ before, earlier = events ++ before ∧
          rest = before ++ .step found after :: tail) ∨
        ∃ front, events = earlier ++ .step found after :: front ∧ tail = front ++ rest := by
      rcases List.append_eq_append_iff.mp split with ⟨_ | ⟨event, front⟩, rfl, same⟩ | past
      · exact .inl ⟨[], by simp, same.symm⟩
      · cases same
        exact .inr ⟨front, rfl, rfl⟩
      · exact .inl past
    rcases either with ⟨before, rfl, rfl⟩ | ⟨front, rfl, rfl⟩
    · -- the turn is over when the request comes
      cases turn with
      | finished memory result => exact absurd (plays_done nexts).1 (by simp)
      | next walk' closer =>
        obtain ⟨past, before, current, middle, rfl, turns, prompt⟩ :=
          walkOn_prompt nexts moment.later
        exact ⟨events ++ past, before, current, middle, (List.append_assoc ..).symm,
          turns.head turned, prompt⟩
    · exact ⟨[], earlier, walk, engine, rfl, .start,
        prompt_of_turn turned ⟨moment.comes, found, after, front, rfl, asked⟩ nexts⟩
  · refine ⟨[], earlier, walk, engine, rfl, .start, ?_⟩
    exact (turn_prompt turned moment).1.imp (fun _ => id) fun _ => nofun
termination_by walk.left context.graph
decreasing_by assumption

/-! ### Runs of one action -/

/-- Wherever the request comes, what a run of one action does after it is prompt. Unless it
is asked before it begins, it records the visit. -/
theorem actOnce_prompt {entry : String} {box : Rect} {engine final : Engine}
    {earlier later : List RunEvent} {value : Option RunResult}
    (plays : (context.ported.actOnce entry box).Plays context.port (heeding context.task) engine
      (earlier ++ later) value final)
    (moment : Moment context.task earlier later) :
    Prompt context.task [] earlier later (fun name => earlier ≠ [] ∧ name = entry)
      (LeftOpen (· = .unfinished) value) := by
  obtain ⟨found, after, tail, rfl, asked⟩ := moment.found
  rw [actOnce_eq, onNode] at plays
  split at plays
  · exact absurd (plays_done plays).1 (by simp)
  · rename_i node isNode
    have named : node.name = entry := context.graph.named entry node isNode
    obtain ⟨looked, rest, split, -, plays⟩ := plays_looks plays
    have looks : ∀ watch : Watch, watch.entry = .none →
        watch.Step context.task looked looked watch :=
      fun _ open' => .quiet open' ⟨rfl, rfl, rfl, rfl⟩
    rcases moment.comes with rfl | ⟨_ | ⟨event, before⟩, question, answer, rfl, waits⟩
    · -- the first look finds the request
      cases split
      have halts : found.stopped.contains context.ported.signal.task = true := asked
      rw [if_pos halts] at plays
      obtain ⟨rfl, rfl, -⟩ := plays_done plays
      refine Prompt.imp (.of_follows ⟨rfl, rfl, rfl⟩ (.nil .fresh) rfl (fun _ => rfl)
        (.step (looks _ rfl) (.nil .fresh)) (.inl ⟨rfl, .inl rfl⟩)) ?_ id
      exact fun name hits => absurd rfl hits.1
    · cases split
    · rw [List.cons_append, List.cons_append] at split
      obtain ⟨rfl, rfl⟩ := List.cons.inj split
      split at plays
      · exact absurd (plays_done plays).1 (by simp)
      · rw [List.append_assoc] at plays
        obtain ⟨middle, follows, open', watch', follows', none, ends, -⟩ :=
          (context.attends_actOn box node).leads_of_call context.port_keeps waits plays asked
        have begun := Follows.step (looks _ rfl) follows
        rw [← List.cons_append] at begun
        refine Prompt.imp (.of_follows ⟨rfl, rfl, rfl⟩ begun open' (begun.left_eq_nil waits)
          follows' (closes_of_leads none ends)) ?_ id
        rintro name ⟨-, rfl⟩
        rw [← named]
        exact follows'.hit_stays (follows.hit_stays rfl)

/-- **From the moment on at which it is asked to stop, a run does not act, captures no screen
for a round, tries at most what is left of the round it is in, waits once at most, and records
one visit at most**, which is incomplete if its action had not begun; and so does a run of
one action. This is said of what a run plays with its ports, and every run that ends has
played so. -/
theorem run_prompt (context : RunContext) (engine : Engine) :
    (∀ memory entry,
      (∀ result final, (context.run memory entry).Ends (heeding context.task) engine result final →
        ∃ events value, (context.ported.run memory entry).Plays context.port
            (heeding context.task) engine events value final ∧
          (value = some result ∨ value = none ∧ result.2 = .unfinished)) ∧
      ∀ earlier later value final, (context.ported.run memory entry).Plays context.port
          (heeding context.task) engine (earlier ++ later) value final →
        Moment context.task earlier later →
        ∃ past before walk middle, earlier = past ++ before ∧
          context.Turns (Walk.start memory entry) engine past walk middle ∧
          Prompt context.task walk.candidates before later (Hits (before ++ later))
            (LeftOpen (·.2 = .unfinished) value)) ∧
    ∀ entry box,
      (∀ result final, (context.actOnce entry box).Ends (heeding context.task) engine result final →
        ∃ events value, (context.ported.actOnce entry box).Plays context.port
            (heeding context.task) engine events value final ∧
          (value = some result ∨ value = none ∧ result = .unfinished)) ∧
      ∀ earlier later value final, (context.ported.actOnce entry box).Plays context.port
          (heeding context.task) engine (earlier ++ later) value final →
        Moment context.task earlier later →
        Prompt context.task [] earlier later (fun name => earlier ≠ [] ∧ name = entry)
          (LeftOpen (· = .unfinished) value) := by
  refine ⟨fun memory entry => ⟨?_, ?_⟩, fun entry box => ⟨?_, ?_⟩⟩
  · exact fun result final ends => (context.handled.run memory entry).plays ends
  · exact fun earlier later value final plays moment => walkOn_prompt plays moment
  · exact fun result final ends => (context.handled.actOnce entry box).plays ends
  · exact fun earlier later value final plays moment => actOnce_prompt plays moment

/-! ### A run of one action that is asked to stop while it rests -/

/-- A run of one action may be asked to stop while it rests before the action. -/
theorem hasty_rests : ∃ earlier later value final,
    (hasty.ported.actOnce "A" default).Plays hasty.port (heeding ⟨1⟩) posted (earlier ++ later)
      value final ∧
    Moment ⟨1⟩ earlier later ∧ earlier ≠ [] := by
  have idle : ∀ engine, (heeding ⟨1⟩).others engine engine := fun _ => id
  have raised : ∀ engine : Engine, (engine.raiseStop ⟨1⟩).stopped.contains ⟨1⟩ = true :=
    fun _ => Std.ExtTreeSet.contains_insert_self
  have isNode : hasty.graph.find? "A" = some fleeting := by
    rw [hasty, Graph.find?_insert]
    rfl
  have starts : hasty.ported.actOnce "A" default = (do
      if ← isStopped hasty.signal then pure (.ended .stopped)
      else hasty.ported.actOn default fleeting) := by
    rw [actOnce_eq, onNode, isNode]
  rw [starts]
  have rested : ∀ poll duration engine,
      (hasty.port (.rest poll duration)).Ends (heeding ⟨1⟩) engine (some ()) engine :=
    fun _ _ _ => .ask () (.done _ _)
  have raise : ∀ engine, (heeding ⟨1⟩).others engine (engine.raiseStop ⟨1⟩) :=
    fun engine _ => raised engine
  refine ⟨[?_, ?_, ?_, ?_, ?_, ?_], [?_, ?_, ?_, ?_], ?_, ?_, ?plays, ?moment,
    List.cons_ne_nil _ _⟩
  case plays =>
    refine .step (idle _) trivial ?_
    refine .step (idle _) trivial ?_
    refine .step (idle _) trivial ?_
    refine .step (idle _) trivial ?_
    refine .step (idle _) trivial ?_
    refine .call (rested _ _ _) ?_
    refine .step (raise _) trivial ?_
    refine .step (idle _) trivial ?_
    refine .step (idle _) trivial ?_
    refine .step (idle _) trivial ?_
    exact .done _ _
  case moment =>
    exact ⟨.inr ⟨[_, _, _, _, _], _, _, rfl, Question.noConfusion⟩, _, _, _, rfl, raised _⟩

/-- It is asked to stop while it rests, and what it does then is prompt. -/
theorem hasty_prompt : ∃ earlier later value final,
    (hasty.ported.actOnce "A" default).Plays hasty.port (heeding ⟨1⟩) posted (earlier ++ later)
      value final ∧
    Moment ⟨1⟩ earlier later ∧ earlier ≠ [] ∧
    Prompt ⟨1⟩ [] earlier later (fun name => earlier ≠ [] ∧ name = "A")
      (LeftOpen (· = .unfinished) value) := by
  obtain ⟨earlier, later, value, final, plays, moment, begun⟩ := hasty_rests
  have prompt := (run_prompt hasty posted).2 "A" default
  exact ⟨earlier, later, value, final, plays, moment, begun,
    prompt.2 earlier later value final plays moment⟩

end RunContext

end ScreenPilot
