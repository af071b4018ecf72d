import ScreenPilot.Proofs.Run.Candidates
import ScreenPilot.Proofs.Run.Ports

/-!
# How a run heeds a request to stop

A run looks whether it is asked to stop before it captures the screen for a round, and
before it acts; it does not look between two candidates of a round, nor before it waits for
a still screen. `Watch` is what is to be known at a moment of a turn to say what may follow:
which candidates of the round are left, whether a node was hit and acted on, how often the
run has waited since it was asked to stop, and how far the visit is recorded. Its rules are
`Watch.Step` and `Watch.Call`.

An activity attends to its rules if it keeps them whatever it finds and is answered, and
whatever call the request to stop comes with (`Attends`). All parts of a run do
(`attends_turn`, `attends_actOn`).
-/

set_option autoImplicit false

namespace ScreenPilot

open Activity Engine

/-! ## Questions by what they are asked for -/

namespace Engine.Question

/-- The name of the node that is to be recognized. -/
def attempt? : Question → Option String
  | .recognize _ _ node => some node.name
  | _ => none

def isCapture : Question → Bool
  | .capture _ => true
  | _ => false

def isWait : Question → Bool
  | .awaitStill _ _ _ => true
  | _ => false

def isAct : Question → Bool
  | .act _ _ _ => true
  | _ => false

end Engine.Question

/-- What a run does by itself, and what it calls. -/
abbrev RunEvent : Type := Activity.Event outside Engine

/-- The node that a round has hit. -/
def Round.hit? {graph : Graph} {memory : Memory} : Round graph memory → Option String
  | .hit _ node _ => some node.node.name
  | _ => none

/-- The node that a scan has hit. -/
def Scan.hit? {graph : Graph} {memory : Memory} : Scan graph memory → Option String
  | .hit _ node _ => some node.node.name
  | _ => none

/-! ## Rules -/

/-- How far a visit is recorded. -/
inductive Entry where
  | none
  | filed (detail : NodeDetail)
  | latest (detail : NodeDetail)
  | listed (detail : NodeDetail)

/-- What is known at a moment of a turn. -/
structure Watch where
  /-- The candidates of the open round that are left. -/
  left : List String
  /-- The node that was hit. -/
  hit : Option String
  /-- The action of the node has begun. -/
  acted : Bool
  /-- How often the run has waited since it was asked to stop. -/
  waits : Nat
  entry : Entry

namespace Watch

/-- At the beginning of a turn. -/
def fresh : Watch := ⟨[], none, false, 0, .none⟩

/-- A step that leaves the visits on record alone, and the requests to stop. -/
structure Quiet (before after : Engine) : Prop where
  nodes : after.cache.nodes = before.cache.nodes
  latest : after.cache.latest = before.cache.latest
  tasks : after.cache.tasks = before.cache.tasks
  stopped : after.stopped = before.stopped

/-- What a run may do by itself. A visit is recorded once, after all calls of a turn; it is
one of the node that was hit, and incomplete if the action has not begun. -/
inductive Step (task : TaskId) : Watch → Engine → Engine → Watch → Prop where
  | quiet {watch : Watch} {before after : Engine} (open' : watch.entry = .none)
      (quiet : Quiet before after) : Step task watch before after watch
  | file {watch : Watch} {engine : Engine} {detail : NodeDetail} (open' : watch.entry = .none)
      (named : ∀ name, watch.hit = some name → detail.name = name)
      (honest : watch.acted = false → detail.completed = false ∧ detail.action = .invalid) :
      Step task watch engine { engine with cache := engine.cache.putNode detail }
        { watch with entry := .filed detail }
  | latest {watch : Watch} {engine : Engine} {detail : NodeDetail}
      (filed : watch.entry = .filed detail) :
      Step task watch engine
        { engine with cache := engine.cache.putLatest detail.name detail.id }
        { watch with entry := .latest detail }
  | list {watch : Watch} {engine : Engine} {detail : NodeDetail}
      (latest : watch.entry = .latest detail) :
      Step task watch engine { engine with cache := (engine.cache.pushVisit task detail.id).2 }
        { watch with entry := .listed detail }

/-- The node that was hit, if an answer says so. -/
def hitBy (node : Node) : Option (Reply (Option Recognition)) → Option String
  | some (.returned (some _)) => some node.name
  | _ => none

/-- What is to be tried after a capture: nothing, if there is no screen to try it on. -/
def seenBy (candidates : List String) : Option (Reply (Option Frame)) → List String
  | some (.returned (some _)) => candidates
  | _ => []

/-- What is left to be tried after a node: nothing, if it is hit. -/
def missedBy (rest : List String) : Option (Reply (Option Recognition)) → List String
  | some (.returned (some _)) => []
  | _ => rest

theorem seenBy_sublist (candidates : List String) (answer : Option (Reply (Option Frame))) :
    (seenBy candidates answer).Sublist candidates := by
  unfold seenBy
  split
  · exact List.Sublist.refl candidates
  · exact List.nil_sublist candidates

theorem missedBy_sublist (rest : List String) (answer : Option (Reply (Option Recognition))) :
    (missedBy rest answer).Sublist rest := by
  unfold missedBy
  split
  · exact List.nil_sublist rest
  · exact List.Sublist.refl rest

/-- What a run may call, with the candidates of its turn; and what it may call no more when
it is asked to stop. A round ends with a hit, and before the run rests, waits or acts. -/
inductive Call (candidates : List String) (asked : Bool) :
    Watch → (question : Question) → Option (Answer question) → Watch → Prop where
  | now {watch : Watch} {answer : Option Nat} : Call candidates asked watch .now answer watch
  | rest {watch : Watch} {poll : UInt64} {duration : Nat} {answer : Option Unit} :
      Call candidates asked watch (.rest poll duration) answer { watch with left := [] }
  | capture {watch : Watch} {controller : Handle} {answer : Option (Reply (Option Frame))}
      (calm : asked = false) :
      Call candidates asked watch (.capture controller) answer
        { watch with left := seenBy candidates answer }
  | recognize {watch : Watch} {recognizer : Handle} {frame : Frame} {node : Node}
      {answer : Option (Reply (Option Recognition))} {skipped rest : List String}
      (isLeft : watch.left = skipped ++ node.name :: rest) (missed : watch.hit = none) :
      Call candidates asked watch (.recognize recognizer frame node) answer
        { watch with left := missedBy rest answer, hit := hitBy node answer }
  | awaitStill {watch : Watch} {actuator : Handle} {wait : WaitFreezes} {node : Node}
      {answer : Option (Reply Bool)} (first : asked = true → watch.waits = 0) :
      Call candidates asked watch (.awaitStill actuator wait node) answer
        { watch with left := [], waits := if asked then 1 else watch.waits }
  | act {watch : Watch} {actuator : Handle} {hit : RecoResult} {node : Node}
      {answer : Option (Reply Bool)} (calm : asked = false) :
      Call candidates asked watch (.act actuator hit node) answer
        { watch with left := [], acted := true }

end Watch

/-- An activity keeps the rules, whatever it finds and is answered. While any call but that
of the clock is open, the run may be asked to stop; from then on it finds that it is. -/
def Activity.Attends {α : Type} (task : TaskId) (candidates : List String)
    (last : Bool → Watch → α → Prop) : Acting α → Bool → Watch → Prop
  | .done value, asked, watch => last asked watch value
  | .step change next, asked, watch =>
    ∀ engine, (asked = true → engine.stopped.contains task = true) →
      ∃ watch', watch.Step task engine (change engine) watch' ∧
        (next engine).Attends task candidates last asked watch'
  | .ask question next, asked, watch =>
    watch.entry = .none ∧ (∃ watch', watch.Call candidates asked question none watch') ∧
      ∀ answer, ∃ watch', watch.Call candidates asked question (some answer) watch' ∧
        ∀ asked', (asked' = asked ∨ asked' = true ∧ question ≠ Question.now) →
          (next answer).Attends task candidates last asked' watch'

namespace Activity.Attends

variable {α β : Type} {task : TaskId} {candidates : List String} {asked : Bool} {watch : Watch}
  {last : Bool → Watch → α → Prop}

/-! ## The small activities -/

theorem imp {activity : Acting α} {more : Bool → Watch → α → Prop}
    (attends : activity.Attends task candidates last asked watch)
    (enough : ∀ asked' watch' value, last asked' watch' value → more asked' watch' value) :
    activity.Attends task candidates more asked watch := by
  induction activity generalizing asked watch with
  | done value => exact enough _ _ _ attends
  | step change next ih =>
    intro engine finds
    obtain ⟨watch', step, attends⟩ := attends engine finds
    exact ⟨watch', step, ih engine attends⟩
  | ask question next ih =>
    refine ⟨attends.1, attends.2.1, fun answer => ?_⟩
    obtain ⟨watch', call, attends⟩ := attends.2.2 answer
    exact ⟨watch', call, fun asked' comes => ih answer (attends asked' comes)⟩

theorem bind {first : Acting β} {next : β → Acting α} {middle : Bool → Watch → β → Prop}
    (attends : first.Attends task candidates middle asked watch)
    (after : ∀ asked' watch' value, middle asked' watch' value →
      (next value).Attends task candidates last asked' watch') :
    (first >>= next).Attends task candidates last asked watch := by
  show (first.bind next).Attends task candidates last asked watch
  induction first generalizing asked watch with
  | done value => exact after _ _ _ attends
  | step change rest ih =>
    intro engine finds
    obtain ⟨watch', step, attends⟩ := attends engine finds
    exact ⟨watch', step, ih engine attends⟩
  | ask question rest ih =>
    refine ⟨attends.1, attends.2.1, fun answer => ?_⟩
    obtain ⟨watch', call, attends⟩ := attends.2.2 answer
    exact ⟨watch', call, fun asked' comes => ih answer (attends asked' comes)⟩

variable (open' : watch.entry = .none)
include open'

/-- A step that leaves the visits alone. -/
theorem quiet {change : Engine → Engine} {next : Engine → Acting α}
    (quiet : ∀ engine, Watch.Quiet engine (change engine))
    (after : ∀ engine, (next engine).Attends task candidates last asked watch) :
    (Activity.step change next).Attends task candidates last asked watch :=
  fun engine _ => ⟨watch, .quiet open' (quiet engine), after engine⟩

/-- A step that leaves the visits alone, before other activities. -/
theorem quiet_bind {change : Engine → Engine} {view : Engine → β} {next : β → Acting α}
    (quiet : ∀ engine, Watch.Quiet engine (change engine))
    (after : ∀ value, (next value).Attends task candidates last asked watch) :
    ((Activity.step change fun engine => .done (view engine)) >>= next).Attends task candidates
      last asked watch :=
  Attends.quiet open' quiet fun engine => after (view engine)

/-- To look whether a stop is requested. -/
theorem looks {signal : StopSignal} (own : signal.task = task) {next : Bool → Acting α}
    (after : ∀ stopped, (asked = true → stopped = true) →
      (next stopped).Attends task candidates last asked watch) :
    (isStopped signal >>= next).Attends task candidates last asked watch := by
  intro engine finds
  refine ⟨watch, .quiet open' ⟨rfl, rfl, rfl, rfl⟩, after _ ?_⟩
  rw [own]
  exact finds

/-- The clock is asked, and no request to stop comes with that. -/
theorem now {next : Nat → Acting α}
    (after : ∀ time, (next time).Attends task candidates last asked watch) :
    (Engine.now >>= next).Attends task candidates last asked watch := by
  refine ⟨open', ⟨watch, .now⟩, fun time => ⟨watch, .now, fun asked' comes => ?_⟩⟩
  rcases comes with rfl | ⟨-, other⟩
  · exact after time
  · exact absurd rfl other

/-- After a rest, a run goes on only if it is not asked to stop. -/
theorem sleep {signal : StopSignal} (own : signal.task = task) (duration : Nat) :
    (Engine.sleep signal duration).Attends task candidates
      (fun asked' watch' goesOn => (∃ left, watch' = { watch with left }) ∧
        (goesOn = true → asked = false ∧ asked' = false)) asked watch := by
  refine looks open' own fun stopped finds => ?_
  cases stopped with
  | true => exact ⟨⟨watch.left, rfl⟩, nofun⟩
  | false =>
    have calm : asked = false := Bool.eq_false_iff.mpr fun same => nomatch finds same
    rw [if_neg Bool.false_ne_true]
    split
    · exact ⟨⟨watch.left, rfl⟩, fun _ => ⟨calm, calm⟩⟩
    · refine ⟨open', ⟨_, .rest⟩, fun _ => ⟨_, .rest, fun asked' _ => ?_⟩⟩
      refine looks (by exact open') own fun stopped finds => ⟨⟨[], rfl⟩, fun goesOn => ⟨calm, ?_⟩⟩
      cases asked' with
      | false => rfl
      | true =>
        rw [finds rfl] at goesOn
        cases goesOn

end Activity.Attends

/-! ## Actions -/

namespace RunContext

variable (context : RunContext) {candidates : List String} {asked : Bool} {watch : Watch}

/-- Whether the run is to go on after a wait for a still screen. -/
theorem attends_settleAfter (open' : watch.entry = .none) (delay : UInt64)
    (seen : Option Bool) :
    (context.ported.settleAfter delay seen).Attends context.task candidates
      (fun asked' watch' ready => (∃ left, watch' = { watch with left }) ∧
        (ready = some true → asked = false ∧ asked' = false)) asked watch := by
  have rests : (some <$> sleep context.signal (nanoseconds delay)).Attends context.task candidates
      (fun asked' watch' ready => (∃ left, watch' = { watch with left }) ∧
        (ready = some true → asked = false ∧ asked' = false)) asked watch := by
    refine (Attends.sleep open' rfl _).bind ?_
    rintro asked' watch' goesOn ⟨same, calm⟩
    exact ⟨same, fun ready => calm (Option.some.inj ready)⟩
  rcases seen with _ | _ | _
  · exact ⟨⟨watch.left, rfl⟩, nofun⟩
  · refine Attends.looks open' rfl fun stopped finds => ?_
    cases stopped with
    | true => exact ⟨⟨watch.left, rfl⟩, nofun⟩
    | false => exact rests
  · exact rests

/-- A run that is asked to stop waits once more at most. -/
theorem attends_seeStill (open' : watch.entry = .none) (first : asked = true → watch.waits = 0)
    (node : Node) (wait : WaitFreezes) :
    (context.ported.seeStill node wait).Attends context.task candidates
      (fun asked' watch' _ => (asked' = false → watch'.waits = watch.waits) ∧
        ∃ left waits, watch' = { watch with left, waits }) asked watch := by
  unfold seeStill
  split
  · rw [Actuator.seen_awaitStill_replaced]
    have waits : watch.Call candidates asked (.awaitStill 0 wait node) none _ := .awaitStill first
    refine ⟨open', ⟨_, waits⟩, fun reply => ⟨_, .awaitStill first, fun asked' comes => ?_⟩⟩
    refine ⟨fun calm => ?_, _, _, rfl⟩
    rcases comes with rfl | ⟨rfl, -⟩
    · rw [calm]
      rfl
    · cases calm
  · exact ⟨fun _ => rfl, watch.left, watch.waits, rfl⟩

/-- Once it is asked to stop, a run does not go on after the rests around an action. -/
theorem attends_settle (open' : watch.entry = .none) (first : asked = true → watch.waits = 0)
    (node : Node) (wait : WaitFreezes) (delay : UInt64) :
    (context.ported.settle node wait delay).Attends context.task candidates
      (fun asked' watch' ready =>
        (ready = some true → asked' = false ∧ watch'.waits = watch.waits) ∧
          ∃ left waits, watch' = { watch with left, waits }) asked watch := by
  rw [settle_eq]
  refine (context.attends_seeStill open' first node wait).bind ?_
  rintro asked' _ seen ⟨same, left, waits, rfl⟩
  refine Attends.imp (context.attends_settleAfter (by exact open') delay seen) ?_
  rintro asked'' _ ready ⟨⟨left', rfl⟩, calm⟩
  exact ⟨fun goesOn => ⟨(calm goesOn).2, same (calm goesOn).1⟩, left', waits, rfl⟩

/-- What is known after the action of a node. -/
def ActsTo (watch watch' : Watch) : Acted → Prop
  | .done _ _ => ∃ left waits, watch' = { watch with left, waits, acted := true }
  | .notStarted => ∃ left waits, watch' = { watch with left, waits }
  | .unfinished => watch'.entry = watch.entry

/-- An action that has begun is reported, whether a stop is requested or not. -/
theorem attends_report (watch : Watch) (open' : watch.entry = .none) (first : watch.waits = 0)
    (visit : NodeId) (node : Node) (hit : RecoResult) (id : ActionId) (success : Bool) :
    (context.ported.report visit node hit id success).Attends context.task candidates
      (fun _ watch' acted =>
        acted ≠ .notStarted ∧ ∃ left waits, watch' = { watch with left, waits })
      asked watch := by
  refine Attends.quiet_bind open' (fun _ => ⟨rfl, rfl, rfl, rfl⟩) fun _ => ?_
  refine Attends.quiet_bind open' (fun _ => ⟨rfl, rfl, rfl, rfl⟩) fun _ => ?_
  refine (context.attends_settle open' (fun _ => first) node _ _).bind ?_
  rintro asked' _ settled ⟨-, left, waits, rfl⟩
  cases settled with
  | none => exact ⟨nofun, left, waits, rfl⟩
  | some goesOn => exact ⟨nofun, left, waits, rfl⟩

/-- **Once it is asked to stop, a run does not act, and waits once more at most.** -/
theorem attends_act (open' : watch.entry = .none) (first : watch.waits = 0) (visit : NodeId)
    (node : Node) (hit : RecoResult) :
    (context.ported.act visit node hit).Attends context.task candidates
      (fun _ watch' acted => ActsTo watch watch' acted) asked watch := by
  rw [act_eq_settle]
  refine (context.attends_settle open' (fun _ => first) node _ _).bind ?_
  rintro asked' _ ready ⟨goesOn, left, waits, rfl⟩
  rcases ready with _ | _ | _
  · rfl
  · exact ⟨left, waits, rfl⟩
  · obtain ⟨rfl, rfl⟩ := goesOn rfl
    refine Attends.quiet_bind (by exact open') (fun _ => ⟨rfl, rfl, rfl, rfl⟩) fun id => ?_
    refine Attends.quiet_bind (by exact open') (fun _ => ⟨rfl, rfl, rfl, rfl⟩) fun _ => ?_
    refine ⟨open', ⟨_, .act rfl⟩, fun reply => ⟨_, .act rfl, fun asked' _ => ?_⟩⟩
    refine Attends.imp
      (context.attends_report _ (by exact open') (by exact first) visit node hit id _) ?_
    rintro _ _ acted ⟨started, left', waits, rfl⟩
    cases acted with
    | done => exact ⟨left', waits, rfl⟩
    | notStarted => exact absurd rfl started
    | unfinished => rfl

/-! ## Scans -/

/-- A node that is left in the round is tried, whether a stop is requested or not. -/
theorem attends_recognize (open' : watch.entry = .none) (missed : watch.hit = none)
    (frame : Frame) (node : Node) {skipped rest : List String}
    (isLeft : watch.left = skipped ++ node.name :: rest) :
    (context.ported.recognize frame node).Attends context.task candidates
      (fun _ watch' reco => watch' =
        { watch with
          left := if reco.isHit then [] else rest
          hit := if reco.isHit then some node.name else none })
      asked watch := by
  refine Attends.quiet_bind open' (fun _ => ⟨rfl, rfl, rfl, rfl⟩) fun id => ?_
  refine Attends.quiet_bind open' (fun _ => ⟨rfl, rfl, rfl, rfl⟩) fun _ => ?_
  refine ⟨open', ⟨_, .recognize isLeft missed⟩, fun reply =>
    ⟨_, .recognize isLeft missed, fun asked' _ => ?_⟩⟩
  refine Attends.quiet_bind (by exact open') (fun _ => ⟨rfl, rfl, rfl, rfl⟩) fun _ => ?_
  refine Attends.quiet_bind (by exact open') (fun _ => ⟨rfl, rfl, rfl, rfl⟩) fun _ => ?_
  rcases reply with (_ | found) | _ <;> rfl

/-- What is known after a round or a scan that hit a node or none. -/
def FindsTo (watch watch' : Watch) (hit : Option String) : Prop :=
  ∃ left, watch' = { watch with left, hit }

theorem findsTo_none (missed : watch.hit = none) (left : List String) :
    FindsTo watch { watch with left } none :=
  ⟨left, by rw [← missed]⟩

theorem attends_tryFrom (memory : Memory) (frame : Frame) (names : List String) (position : Nat)
    (seen : List String) (tried : Bool) (last : Option (String × RecoId)) (watch : Watch)
    (open' : watch.entry = .none) (missed : watch.hit = none) {skipped : List String}
    (isLeft : watch.left = skipped ++ names) :
    (context.ported.tryFrom memory frame position seen tried last names).Attends context.task
      candidates (fun _ watch' round => FindsTo watch watch' round.hit?) asked watch := by
  induction names generalizing position seen tried last watch skipped asked with
  | nil => exact findsTo_none missed _
  | cons name names ih =>
    have skips : watch.left = (skipped ++ [name]) ++ names := by
      rw [isLeft, List.append_assoc]
      rfl
    unfold RunContext.tryFrom
    split
    · exact ih _ _ _ _ watch open' missed skips
    · split
      · exact findsTo_none missed _
      · rename_i node found
        split
        · exact ih _ _ _ _ watch open' missed skips
        · rename_i eligible able
          rw [← context.graph.named name node found] at isLeft
          refine (context.attends_recognize open' missed frame node isLeft).bind ?_
          rintro asked' _ reco rfl
          cases reco.isHit with
          | true =>
            refine ⟨[], ?_⟩
            rw [Round.hit?, name_of_eligible? found able, context.graph.named name node found]
            rfl
          | false =>
            refine Attends.imp (ih _ _ _ _ _ (by exact open') (by rfl) (List.nil_append _).symm) ?_
            rintro _ _ round ⟨left, rfl⟩
            exact ⟨left, rfl⟩

/-- A round begins only if no stop is requested. -/
theorem attends_tryAll (memory : Memory) (last : Option (String × RecoId))
    (open' : watch.entry = .none) (missed : watch.hit = none) :
    (context.ported.tryAll memory candidates last).Attends context.task candidates
      (fun _ watch' round => FindsTo watch watch' (round.bind Round.hit?)) false watch := by
  refine ⟨open', ⟨_, .capture rfl⟩, fun reply => ⟨_, .capture rfl, fun asked' _ => ?_⟩⟩
  rcases reply with (_ | frame) | _
  · refine Attends.quiet (by exact open') (fun _ => ⟨rfl, rfl, rfl, rfl⟩) fun _ => ?_
    exact findsTo_none missed []
  · refine Attends.quiet (by exact open') (fun _ => ⟨rfl, rfl, rfl, rfl⟩) fun _ => ?_
    show (some <$> context.ported.tryFrom memory frame 0 [] false last candidates).Attends _ _ _ _ _
    refine Attends.bind (context.attends_tryFrom memory frame candidates 0 [] false last
      { watch with left := candidates } open' missed (List.nil_append _).symm) ?_
    rintro _ _ round ⟨left, rfl⟩
    exact ⟨left, rfl⟩
  · exact findsTo_none missed []

theorem attends_betweenRounds (open' : watch.entry = .none) (owner : Node)
    (deadline round : Nat) :
    (context.ported.betweenRounds owner deadline round).Attends context.task candidates
      (fun _ watch' _ => ∃ left, watch' = { watch with left }) asked watch := by
  refine Attends.now open' fun time => ?_
  split
  · exact ⟨watch.left, rfl⟩
  · refine Attends.now open' fun _ => (Attends.sleep open' rfl _).bind ?_
    rintro _ _ _ ⟨same, -⟩
    exact same

theorem attends_scanRounds (memory : Memory) (owner : Node)
    (interruptAt deadline patience : Nat) (last : Option (String × RecoId))
    (watch : Watch) (open' : watch.entry = .none) (missed : watch.hit = none) :
    (context.ported.scanRounds memory owner candidates interruptAt deadline patience last).Attends
      context.task candidates (fun _ watch' scan => FindsTo watch watch' scan.hit?)
      asked watch := by
  have gaveUp : ∀ last, (giveUp interruptAt last : Scan context.graph memory).hit? = none := by
    intro last
    unfold giveUp
    split <;> rfl
  induction patience generalizing last watch asked with
  | zero => exact findsTo_none missed _
  | succ patience ih =>
    refine Attends.looks open' rfl fun stopped finds => ?_
    cases stopped with
    | true => exact findsTo_none missed _
    | false =>
      obtain rfl : asked = false := Bool.eq_false_iff.mpr fun same => nomatch finds same
      refine Attends.now open' fun start => ?_
      refine (context.attends_tryAll memory last open' missed).bind ?_
      rintro asked' _ round ⟨left, rfl⟩
      rcases round with _ | _ | _ | ⟨_ | _, last'⟩
      · exact ⟨left, rfl⟩
      · exact ⟨left, rfl⟩
      · exact ⟨left, rfl⟩
      · exact ⟨left, by rw [gaveUp]; rfl⟩
      · refine Attends.bind (context.attends_betweenRounds (by exact open') owner _ _) ?_
        rintro asked'' _ goesOn ⟨left, rfl⟩
        rcases goesOn with _ | _ | _
        · exact ⟨left, by rw [gaveUp]; rfl⟩
        · exact ⟨left, rfl⟩
        · refine Attends.imp (ih _ _ (by exact open') (by rfl)) ?_
          rintro _ _ scan ⟨left', rfl⟩
          exact ⟨left', rfl⟩

/-! ## Visits -/

/-- A visit may be recorded that is one of the node that was hit, and incomplete if the action
has not begun. -/
theorem attends_recordVisit (open' : watch.entry = .none) {detail : NodeDetail}
    (named : ∀ name, watch.hit = some name → detail.name = name)
    (honest : watch.acted = false → detail.completed = false ∧ detail.action = .invalid) :
    (context.recordVisit detail).Attends context.task candidates
      (fun _ watch' _ => watch' = { watch with entry := .listed detail }) asked watch :=
  fun _ _ => ⟨_, .file open' named honest, fun _ _ => ⟨_, .latest rfl, fun _ _ =>
    ⟨_, .list rfl, rfl⟩⟩⟩

/-- At the end of a turn that leaves nothing open, the visit of a node that was hit is
recorded. -/
def Closes (watch : Watch) (isOpen : Prop) : Prop :=
  (watch.entry = .none ∧ (watch.hit = none ∨ isOpen)) ∨ ∃ detail, watch.entry = .listed detail

theorem attends_afterMiss (walk : Walk) (owner : Node) (last : Option (String × RecoId))
    (open' : watch.entry = .none) (missed : watch.hit = none) :
    (context.ported.afterMiss walk owner last).Attends context.task candidates
      (fun _ watch' turn => Closes watch' turn.IsOpen) asked watch := by
  refine Attends.quiet_bind open' (fun _ => ⟨rfl, rfl, rfl, rfl⟩) fun visit => ?_
  refine Attends.bind (context.ported.attends_recordVisit open' ?_ fun _ => ⟨rfl, rfl⟩) ?_
  · intro name hit
    rw [missed] at hit
    cases hit
  rintro _ _ _ rfl
  split
  · split <;> exact .inr ⟨_, rfl⟩
  · exact .inr ⟨_, rfl⟩

theorem attends_afterHit (walk : Walk) (position : Nat)
    (hit : Memory.Eligible context.graph walk.memory) (reco : RecoResult) (watch : Watch)
    (open' : watch.entry = .none) (first : watch.waits = 0)
    (isHit : watch.hit = some hit.node.name) :
    (context.ported.afterHit walk position hit reco).Attends context.task candidates
      (fun _ watch' turn => Closes watch' turn.IsOpen) asked watch := by
  have named : ∀ name, watch.hit = some name → hit.node.name = name := by
    intro name same
    exact Option.some.inj (isHit.symm.trans same)
  refine Attends.quiet_bind open' (fun _ => ⟨rfl, rfl, rfl, rfl⟩) fun visit => ?_
  refine (context.attends_act open' first visit hit.node reco).bind ?_
  intro asked' watch' acted acts
  cases acted with
  | unfinished => exact .inl ⟨acts.trans open', .inr ⟨_, rfl⟩⟩
  | notStarted =>
    obtain ⟨left, waits, rfl⟩ := acts
    refine Attends.bind (context.ported.attends_recordVisit (by exact open') named
      fun _ => ⟨rfl, rfl⟩) ?_
    rintro _ _ _ rfl
    exact .inr ⟨_, rfl⟩
  | done action success =>
    obtain ⟨left, waits, rfl⟩ := acts
    refine Attends.bind (context.ported.attends_recordVisit (by exact open') named nofun) ?_
    rintro _ _ _ rfl
    split
    · exact .inr ⟨_, rfl⟩
    · split
      · exact .inr ⟨_, rfl⟩
      · split <;> exact .inr ⟨_, rfl⟩

/-- **A turn keeps the rules.** -/
theorem attends_turn (walk : Walk) :
    (context.ported.turn walk).Attends context.task walk.candidates
      (fun _ watch' turn => Closes watch' turn.IsOpen) asked .fresh := by
  refine Attends.looks rfl rfl fun stopped _ => ?_
  split
  · exact .inl ⟨rfl, .inl rfl⟩
  · split
    · exact .inl ⟨rfl, .inl rfl⟩
    · unfold look
      split
      · exact .inl ⟨rfl, .inl rfl⟩
      · refine Attends.bind (Attends.now rfl fun time =>
          context.attends_scanRounds walk.memory _ _ _ _ _ .fresh rfl rfl) ?_
        rintro asked' _ scan ⟨left, rfl⟩
        cases scan with
        | hit position node reco =>
          exact context.attends_afterHit walk position node reco _ rfl rfl rfl
        | missed last => exact context.attends_afterMiss walk _ last rfl rfl
        | exhausted | stopped | unknown | crashed | unfinished => exact .inl ⟨rfl, .inl rfl⟩

/-- What is done with a node whose action is to be carried out on a box. -/
def actOn (box : Rect) (node : Node) : Acting RunResult := do
  let hit : RecoResult :=
    { id := ← draw .reco, name := node.name, algorithm := RecoParam.directHit.kind,
      box := some box, detail := .null }
  modifyCache (Cache.putReco hit)
  let visit ← draw .node
  match ← context.act visit node hit with
  | .unfinished => pure .unfinished
  | .notStarted =>
    context.recordVisit ⟨visit, node.name, hit.id, .invalid, false⟩
    pure (.ended .stopped)
  | .done action success =>
    context.recordVisit ⟨visit, node.name, hit.id, action, success⟩
    pure (singleOutcome success .actionFailed)

theorem actOnce_eq (entry : String) (box : Rect) :
    context.actOnce entry box = context.onNode entry (context.actOn box) := rfl

/-- **What is done with a node to act on keeps the rules**, as if the node had been hit. -/
theorem attends_actOn (box : Rect) (node : Node) :
    (context.ported.actOn box node).Attends context.task []
      (fun _ watch' result => Closes watch' (result = .unfinished)) asked
      { Watch.fresh with hit := some node.name } := by
  refine Attends.quiet_bind rfl (fun _ => ⟨rfl, rfl, rfl, rfl⟩) fun id => ?_
  refine Attends.quiet_bind rfl (fun _ => ⟨rfl, rfl, rfl, rfl⟩) fun _ => ?_
  refine Attends.quiet_bind rfl (fun _ => ⟨rfl, rfl, rfl, rfl⟩) fun visit => ?_
  refine Attends.bind (context.attends_act rfl rfl visit node _) ?_
  intro asked' watch' acted acts
  cases acted with
  | unfinished => exact .inl ⟨acts, .inr rfl⟩
  | notStarted =>
    obtain ⟨left, waits, rfl⟩ := acts
    refine Attends.bind (context.ported.attends_recordVisit rfl (fun _ => Option.some.inj)
      fun _ => ⟨rfl, rfl⟩) ?_
    rintro _ _ _ rfl
    exact .inr ⟨_, rfl⟩
  | done action success =>
    obtain ⟨left, waits, rfl⟩ := acts
    refine Attends.bind (context.ported.attends_recordVisit rfl (fun _ => Option.some.inj)
      nofun) ?_
    rintro _ _ _ rfl
    exact .inr ⟨_, rfl⟩

end RunContext

end ScreenPilot
