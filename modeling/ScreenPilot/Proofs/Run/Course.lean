import ScreenPilot.Proofs.Activity.Phases
import ScreenPilot.Proofs.Run.Steps

/-!
# The course of a run

A run puts an attempt or an action on record before it announces its end, and it records a
visit only of attempts and actions that are on record. So what its next step may be depends
on what it has put on record and on what it is in the middle of (`Course`). `Course.Go`
lists the steps; `run_goes`, `recognizeOnce_goes` and `actOnce_goes` say that every run
takes its steps in this order, whatever collaborators answer, and is in the middle of
nothing when it is over.

The events of a run that walks a graph are those of a pipeline: an action is announced
right after the hit that led to it.
-/

set_option autoImplicit false

namespace ScreenPilot

/-- An event announces that a step of a task is about to begin. -/
structure NodeEvent.Opens (task : TaskId) (kind : StepKind) (event : NodeEvent) : Prop where
  task : event.task = task
  kind : event.kind = kind
  phase : event.phase = .starting

/-- The event that announces how a step has ended. -/
def NodeEvent.closing (event : NodeEvent) (success : Bool) : NodeEvent :=
  { event with phase := .ofSuccess success }

/-- What a run has in hand for the records and events to come. -/
structure Hand where
  /-- The attempts that it has put on record. -/
  recos : List RecoResult
  /-- The actions that it has put on record. -/
  actions : List ActionResult
  /-- The number drawn for a visit that is not on record yet. -/
  visit : Option NodeId
  /-- The attempt that was a hit by the last event. -/
  lastHit : Option RecoId

namespace Hand

/-- A run that has done nothing yet has nothing in hand. -/
def empty : Hand := ⟨[], [], none, none⟩

/-- A number has been drawn for a visit. -/
def withVisit (hand : Hand) (visit : NodeId) : Hand := { hand with visit := some visit }

/-- What a visit refers to is in hand. -/
structure Supports (hand : Hand) (detail : NodeDetail) : Prop where
  reco : detail.reco.isValid = true →
    ∃ result ∈ hand.recos, result.id = detail.reco ∧ result.name = detail.name
  action : detail.action.isValid = true → ∃ result ∈ hand.actions,
    result.id = detail.action ∧ result.name = detail.name ∧ result.success = detail.completed
  completed : detail.completed = true →
    ∃ result ∈ hand.recos, result.id = detail.reco ∧ result.isHit = true

/-- The last attempt at a list of candidates, if there was one, is in hand. -/
def Knows (hand : Hand) (last : Option (String × RecoId)) : Prop :=
  ∀ name id, last = some (name, id) → ∃ result ∈ hand.recos, result.id = id ∧ result.name = name

/-- A hit on a node is in hand. -/
structure Hits (hand : Hand) (node : Node) (reco : RecoResult) : Prop where
  member : reco ∈ hand.recos
  isHit : reco.isHit = true
  name : reco.name = node.name

end Hand

/-- What a run is in the middle of. -/
inductive RunPhase where
  /-- Nothing. -/
  | calm
  /-- The number of an attempt has been drawn. -/
  | attempt (id : RecoId)
  /-- The attempt has been announced. -/
  | recognizing (event : NodeEvent)
  /-- The attempt is on record. -/
  | recognized (event : NodeEvent) (result : RecoResult)
  /-- The number of an action has been drawn. -/
  | action (id : ActionId)
  /-- The action has been announced. -/
  | acting (event : NodeEvent)
  /-- The action is on record. -/
  | acted (event : NodeEvent) (result : ActionResult)
  /-- The visit is on record. -/
  | filed (detail : NodeDetail)
  /-- The visit is on record as the last one of its node. -/
  | noted (detail : NodeDetail)

/-- How far a run has come. -/
structure Course where
  hand : Hand
  phase : RunPhase

namespace Course

open Engine Activity

/-- The steps of a run of a task. In a pipeline, an action follows a hit. -/
inductive Go (task : TaskId) (isPipeline : Prop) : Course → Engine → Engine → Course → Prop where
  | idle {course : Course} {before after : Engine} (step : IdleStep before after) :
      Go task isPipeline course before after course
  | drawReco {hand : Hand} (engine : Engine) :
      Go task isPipeline ⟨hand, .calm⟩ engine { engine with ids := (engine.ids.draw .reco).2 }
        ⟨hand, .attempt (engine.ids.draw .reco).1⟩
  | announceReco {hand : Hand} (event : NodeEvent) (opens : event.Opens task .recognition)
      (engine : Engine) :
      Go task isPipeline ⟨hand, .attempt event.reco⟩ engine
        { engine with notifier := engine.notifier.emit (.ofNode event) }
        ⟨{ hand with lastHit := none }, .recognizing event⟩
  | fileReco {hand : Hand} {event : NodeEvent} {result : RecoResult}
      (same : result.id = event.reco) (engine : Engine) :
      Go task isPipeline ⟨hand, .recognizing event⟩ engine
        { engine with cache := engine.cache.putReco result }
        ⟨{ hand with recos := result :: hand.recos }, .recognized event result⟩
  | reportReco {hand : Hand} {event : NodeEvent} {result : RecoResult} (engine : Engine) :
      Go task isPipeline ⟨hand, .recognized event result⟩ engine
        { engine with notifier := engine.notifier.emit (.ofNode (event.closing result.isHit)) }
        ⟨{ hand with lastHit := if result.isHit then some event.reco else none }, .calm⟩
  /-- An attempt that is not made but given is put on record. -/
  | giveReco {hand : Hand} (result : RecoResult) (engine : Engine) :
      Go task isPipeline ⟨hand, .attempt result.id⟩ engine
        { engine with cache := engine.cache.putReco result }
        ⟨{ hand with recos := result :: hand.recos }, .calm⟩
  | drawVisit {hand : Hand} (engine : Engine) :
      Go task isPipeline ⟨hand, .calm⟩ engine { engine with ids := (engine.ids.draw .node).2 }
        ⟨hand.withVisit (engine.ids.draw .node).1, .calm⟩
  | drawAction {hand : Hand} (engine : Engine) :
      Go task isPipeline ⟨hand, .calm⟩ engine { engine with ids := (engine.ids.draw .action).2 }
        ⟨hand, .action (engine.ids.draw .action).1⟩
  | announceAction {hand : Hand} (event : NodeEvent) (opens : event.Opens task .action)
      (led : isPipeline → hand.lastHit = some event.reco) (engine : Engine) :
      Go task isPipeline ⟨hand, .action event.action⟩ engine
        { engine with notifier := engine.notifier.emit (.ofNode event) }
        ⟨{ hand with lastHit := none }, .acting event⟩
  | fileAction {hand : Hand} {event : NodeEvent} {result : ActionResult}
      (same : result.id = event.action) (engine : Engine) :
      Go task isPipeline ⟨hand, .acting event⟩ engine
        { engine with cache := engine.cache.putAction result }
        ⟨{ hand with actions := result :: hand.actions }, .acted event result⟩
  | reportAction {hand : Hand} {event : NodeEvent} {result : ActionResult} (engine : Engine) :
      Go task isPipeline ⟨hand, .acted event result⟩ engine
        { engine with notifier := engine.notifier.emit (.ofNode (event.closing result.success)) }
        ⟨{ hand with lastHit := none }, .calm⟩
  | fileVisit {hand : Hand} {detail : NodeDetail} (drawn : hand.visit = some detail.id)
      (supports : hand.Supports detail) (engine : Engine) :
      Go task isPipeline ⟨hand, .calm⟩ engine
        { engine with cache := engine.cache.putNode detail }
        ⟨{ hand with visit := none }, .filed detail⟩
  | noteVisit {hand : Hand} {detail : NodeDetail} (engine : Engine) :
      Go task isPipeline ⟨hand, .filed detail⟩ engine
        { engine with cache := engine.cache.putLatest detail.name detail.id }
        ⟨hand, .noted detail⟩
  | listVisit {hand : Hand} {detail : NodeDetail} (engine : Engine) :
      Go task isPipeline ⟨hand, .noted detail⟩ engine
        { engine with cache := (engine.cache.pushVisit task detail.id).2 } ⟨hand, .calm⟩

/-- A run is in the middle of nothing when it is over. -/
def Over {α : Type} (course : Course) (_ : α) : Prop := course.phase = .calm

variable {isPipeline : Prop} {hand : Hand}

/-- While a run rests or a collaborator is at work, the course is the same. -/
theorem idle_goes {α β : Type} {task : TaskId} {course : Course} {last : Course → α → Prop}
    {first : Acting β} {next : β → Acting α} (steps : first.Steps IdleStep)
    (after : ∀ value, (next value).Obeys (Go task isPipeline) last course) :
    (first >>= next).Obeys (Go task isPipeline) last course :=
  steps.obeys_bind (fun _ _ => .idle) (fun engine => .idle (.look engine)) after

end Course

namespace RunContext

open Engine Activity Course

variable (context : RunContext) {isPipeline : Prop} {hand : Hand}

/-- The event that announces a step of a node. -/
def opening (node : Node) (kind : StepKind) (visit : NodeId) (reco : RecoId)
    (action : ActionId) : NodeEvent where
  kind := kind
  phase := .starting
  task := context.task
  node := visit
  reco := reco
  action := action
  name := node.name
  focus := node.focus

theorem opens_opening (node : Node) (kind : StepKind) (visit : NodeId) (reco : RecoId)
    (action : ActionId) :
    (context.opening node kind visit reco action).Opens context.task kind :=
  ⟨rfl, rfl, rfl⟩

/-! ## Attempts -/

/-- An attempt at a node is on record, and its end was announced last. -/
def Attempted (hand : Hand) (node : Node) (course : Course) (result : RecoResult) : Prop :=
  result.name = node.name ∧
    course = ⟨{ hand with
      recos := result :: hand.recos
      lastHit := if result.isHit then some result.id else none }, .calm⟩

theorem recognize_goes (frame : Frame) (node : Node) :
    (context.recognize frame node).Obeys (Go context.task isPipeline) (Attempted hand node)
      ⟨hand, .calm⟩ := by
  refine .transact_bind fun drawn => ⟨_, .drawReco drawn, .modify fun engine => ?_⟩
  have opens := context.opens_opening node .recognition .invalid (drawn.ids.draw .reco).1 .invalid
  refine ⟨_, .announceReco _ opens engine, ?_⟩
  refine idle_goes (idle_find context.recognizer frame node) fun found => ?_
  exact fun engine => ⟨_, .fileReco rfl engine, fun engine => ⟨_, .reportReco engine, rfl, rfl⟩⟩

end RunContext

/-! ## Looking for candidates -/

/-- What a round has found is in hand. -/
def Round.Backed {graph : Graph} {memory : Memory} (hand : Hand) : Round graph memory → Prop
  | .hit _ node reco => hand.Hits node.node reco ∧ hand.lastHit = some reco.id
  | .unknown _ => True
  | .missed _ last => hand.Knows last

/-- What was found of a list of candidates is in hand. -/
def Scan.Backed {graph : Graph} {memory : Memory} (hand : Hand) : Scan graph memory → Prop
  | .hit _ node reco => hand.Hits node.node reco ∧ hand.lastHit = some reco.id
  | .missed last => hand.Knows last
  | .exhausted | .stopped | .unknown _ | .crashed | .unfinished => True

namespace RunContext

open Engine Activity Course

variable (context : RunContext) {isPipeline : Prop} {hand : Hand} {last : Option (String × RecoId)}

/-- A node that may be looked for is the one that has the name. -/
theorem node_of_eligible? {graph : Graph} {memory : Memory} {name : String} {node : Node}
    (found : graph.find? name = some node) {eligible : Memory.Eligible graph memory}
    (able : memory.eligible? found = some eligible) : eligible.node = node := by
  unfold Memory.eligible? at able
  split at able
  · cases able
    rfl
  · cases able

theorem tryFrom_goes (memory : Memory) (frame : Frame) (names seen : List String)
    (position : Nat) (tried : Bool) (knows : hand.Knows last) :
    (context.tryFrom memory frame position seen tried last names).Obeys
      (Go context.task isPipeline)
      (fun course round => course.phase = .calm ∧ round.Backed course.hand) ⟨hand, .calm⟩ := by
  induction names generalizing hand position seen tried last with
  | nil => exact ⟨rfl, knows⟩
  | cons name names ih =>
    unfold RunContext.tryFrom
    split
    · exact ih _ _ _ knows
    · split
      · exact ⟨rfl, trivial⟩
      · rename_i node found
        split
        · exact ih _ _ _ knows
        · rename_i eligible able
          refine (context.recognize_goes frame node).bind fun result course attempted => ?_
          obtain ⟨named, rfl⟩ := attempted
          cases isHit : result.isHit with
          | true =>
            have same := congrArg Node.name (node_of_eligible? found able)
            exact ⟨rfl, ⟨List.mem_cons_self, isHit, named.trans same.symm⟩, rfl⟩
          | false =>
            refine ih _ _ _ ?_
            rintro _ _ ⟨⟩
            exact ⟨result, List.mem_cons_self, rfl, named⟩

theorem tryAll_goes (memory : Memory) (candidates : List String) (knows : hand.Knows last) :
    (context.tryAll memory candidates last).Obeys (Go context.task isPipeline)
      (fun course round => course.phase = .calm ∧
        ∀ ended, round = some ended → ended.Backed course.hand) ⟨hand, .calm⟩ := by
  refine idle_goes (idle.capture context.controller) fun reply => ?_
  match reply with
  | .crashed =>
    refine ⟨rfl, ?_⟩
    rintro _ ⟨⟩
  | .returned none =>
    refine ⟨rfl, ?_⟩
    rintro _ ⟨⟩
    exact knows
  | .returned (some frame) =>
    show Obeys _ _ (context.tryFrom memory frame 0 [] false last candidates >>= _) _
    refine (context.tryFrom_goes memory frame candidates [] 0 false knows).bind ?_
    rintro round course ⟨calm, backed⟩
    refine ⟨calm, ?_⟩
    rintro _ ⟨⟩
    exact backed

theorem giveUp_backed {graph : Graph} {memory : Memory} (interruptAt : Nat)
    (knows : hand.Knows last) : (giveUp interruptAt last : Scan graph memory).Backed hand := by
  unfold giveUp
  split
  · trivial
  · exact knows

theorem scanRounds_goes (memory : Memory) (owner : Node) (candidates : List String)
    (interruptAt deadline patience : Nat) (knows : hand.Knows last) :
    (context.scanRounds memory owner candidates interruptAt deadline patience last).Obeys
      (Go context.task isPipeline)
      (fun course scan => course.phase = .calm ∧ scan.Backed course.hand) ⟨hand, .calm⟩ := by
  induction patience generalizing hand last with
  | zero => exact ⟨rfl, trivial⟩
  | succ patience ih =>
    refine idle_goes (idle_reads _) fun isStopped => ?_
    split
    · exact ⟨rfl, trivial⟩
    · refine idle_goes (idle_ask _) fun start => ?_
      refine (context.tryAll_goes memory candidates knows).bind fun round course tried => ?_
      obtain ⟨hand, phase⟩ := course
      obtain ⟨rfl, backed⟩ := tried
      match round with
      | none => exact ⟨rfl, trivial⟩
      | some (.hit position node reco) => exact ⟨rfl, backed _ rfl⟩
      | some (.unknown name) => exact ⟨rfl, trivial⟩
      | some (.missed false last) => exact ⟨rfl, giveUp_backed interruptAt (backed _ rfl)⟩
      | some (.missed true last) =>
        have known : hand.Knows last := backed _ rfl
        refine idle_goes (idle_betweenRounds context owner deadline start) fun goOn => ?_
        match goOn with
        | none => exact ⟨rfl, giveUp_backed interruptAt known⟩
        | some false => exact ⟨rfl, trivial⟩
        | some true => exact ih known

theorem scan_goes (memory : Memory) (owner : Node) (candidates : List String)
    (interruptAt : Nat) :
    (context.scan memory owner candidates interruptAt).Obeys (Go context.task isPipeline)
      (fun course scan => course.phase = .calm ∧ scan.Backed course.hand) ⟨hand, .calm⟩ :=
  idle_goes (idle_ask _) fun _ =>
    context.scanRounds_goes memory owner candidates interruptAt _ _ nofun

/-! ## Visits -/

/-- The action of a node is on record if it began. -/
def Performed (hand : Hand) (node : Node) (course : Course) : Acted → Prop
  | .done action success => course = ⟨{ hand with
      actions := ⟨action, node.name, success⟩ :: hand.actions
      lastHit := none }, .calm⟩
  | .notStarted => course = ⟨hand, .calm⟩
  | .unfinished => course.phase = .calm

theorem act_goes (visit : NodeId) (node : Node) (hit : RecoResult)
    (led : isPipeline → hand.lastHit = some hit.id) :
    (context.act visit node hit).Obeys (Go context.task isPipeline) (Performed hand node)
      ⟨hand, .calm⟩ := by
  refine idle_goes (idle_settle context node node.preWait node.preDelay) fun ready => ?_
  match ready with
  | none => exact rfl
  | some false => exact rfl
  | some true =>
    refine .transact_bind fun drawn => ⟨_, .drawAction drawn, .modify fun engine => ?_⟩
    have opens := context.opens_opening node .action visit hit.id (drawn.ids.draw .action).1
    refine ⟨_, .announceAction _ opens led engine, ?_⟩
    refine idle_goes (idle_actuate context.actuator hit node) fun reply => .modify fun engine => ?_
    refine ⟨_, .fileAction rfl engine, .modify fun engine => ⟨_, .reportAction engine, ?_⟩⟩
    refine idle_goes (idle_settle context node node.postWait node.postDelay) fun settled => ?_
    cases settled with
    | none => exact rfl
    | some goOn => exact rfl

/-- A visit that is recorded is no longer in hand. -/
theorem recordVisit_goes {detail : NodeDetail} (drawn : hand.visit = some detail.id)
    (supports : hand.Supports detail) :
    (context.recordVisit detail).Obeys (Go context.task isPipeline) Over ⟨hand, .calm⟩ :=
  fun engine => ⟨_, .fileVisit drawn supports engine,
    fun engine => ⟨_, .noteVisit engine, fun engine => ⟨_, .listVisit engine, rfl⟩⟩⟩

/-- When a visit is recorded, what follows does nothing. -/
theorem recordVisit_over {α : Type} {detail : NodeDetail} {value : α}
    (drawn : hand.visit = some detail.id) (supports : hand.Supports detail) :
    (do
      context.recordVisit detail
      pure value : Acting α).Obeys (Go context.task isPipeline) Over ⟨hand, .calm⟩ :=
  (context.recordVisit_goes drawn supports).bind fun _ _ calm => calm

/-- A visit without an action is one of the attempt that led to it. -/
theorem supports_attempt {node : Node} {result : RecoResult} (member : result ∈ hand.recos)
    (named : result.name = node.name) (visit : NodeId) {completed : Bool}
    (isHit : completed = true → result.isHit = true) :
    hand.Supports ⟨visit, node.name, result.id, .invalid, completed⟩ where
  reco _ := ⟨result, member, rfl, named⟩
  action valid := by cases valid
  completed completes := ⟨result, member, rfl, isHit completes⟩

/-- So is one of a hit whose action has not begun. -/
theorem supports_hit {node : Node} {hit : RecoResult} (hits : hand.Hits node hit)
    (visit : NodeId) : hand.Supports ⟨visit, node.name, hit.id, .invalid, false⟩ :=
  supports_attempt hits.member hits.name visit nofun

/-- A visit after an action is one of the hit and of the action. -/
theorem supports_action {node : Node} {hit : RecoResult} (hits : hand.Hits node hit)
    (visit : NodeId) (action : ActionId) (success : Bool) :
    ({ hand with
      actions := ⟨action, node.name, success⟩ :: hand.actions
      lastHit := none } : Hand).Supports ⟨visit, node.name, hit.id, action, success⟩ where
  reco _ := ⟨hit, hits.member, rfl, hits.name⟩
  action _ := ⟨_, List.mem_cons_self, rfl, rfl, rfl⟩
  completed _ := ⟨hit, hits.member, rfl, hits.isHit⟩

/-! ## Turns -/

theorem afterMiss_goes (walk : Walk) (owner : Node) (knows : hand.Knows last) :
    (context.afterMiss walk owner last).Obeys (Go context.task isPipeline) Over
      ⟨hand, .calm⟩ := by
  unfold RunContext.afterMiss
  refine .transact_bind fun engine => ⟨_, .drawVisit engine, ?_⟩
  refine (context.recordVisit_goes rfl
    ⟨fun valid => ?_, fun valid => ?_, fun completed => ?_⟩).bind ?_
  · cases last with
    | none => cases valid
    | some last => exact knows last.1 last.2 rfl
  · cases valid
  · cases completed
  · intro _ course calm
    split
    · split
      · exact calm
      · exact calm
    · exact calm

theorem afterHit_goes (walk : Walk) (position : Nat)
    (hit : Memory.Eligible context.graph walk.memory) {reco : RecoResult}
    (hits : hand.Hits hit.node reco) (lastHit : hand.lastHit = some reco.id) :
    (context.afterHit walk position hit reco).Obeys (Go context.task isPipeline) Over
      ⟨hand, .calm⟩ := by
  refine .transact_bind fun engine => ⟨_, .drawVisit engine, ?_⟩
  have held : (hand.withVisit (engine.ids.draw .node).1).Hits hit.node reco :=
    ⟨hits.member, hits.isHit, hits.name⟩
  have announced : (hand.withVisit (engine.ids.draw .node).1).lastHit = some reco.id := lastHit
  refine (context.act_goes _ hit.node reco fun _ => announced).bind fun acted course done => ?_
  cases acted with
  | unfinished => exact done
  | notStarted =>
    cases done
    exact context.recordVisit_over rfl (supports_hit held _)
  | done action success =>
    cases done
    refine (context.recordVisit_goes rfl (supports_action held _ _ _)).bind fun _ course calm => ?_
    split
    · exact calm
    · split
      · exact calm
      · split
        · exact calm
        · exact calm

theorem look_goes (walk : Walk) (something : walk.candidates ≠ []) :
    (context.look walk something).Obeys (Go context.task isPipeline) Over ⟨hand, .calm⟩ := by
  unfold RunContext.look
  split
  · exact rfl
  · rename_i owner _
    refine (context.scan_goes walk.memory owner walk.candidates walk.interruptAt).bind ?_
    rintro scan ⟨hand, phase⟩ ⟨rfl, backed⟩
    cases scan with
    | hit position node reco => exact context.afterHit_goes walk position node backed.1 backed.2
    | missed last => exact context.afterMiss_goes walk owner backed
    | exhausted | stopped | unknown | crashed | unfinished => exact rfl

theorem turn_goes (walk : Walk) :
    (context.turn walk).Obeys (Go context.task isPipeline) Over ⟨hand, .calm⟩ := by
  refine idle_goes (idle_reads _) fun isStopped => ?_
  split
  · exact rfl
  · split
    · exact rfl
    · exact context.look_goes walk _

/-! ## Runs -/

theorem walkOn_goes (walk : Walk) (hand : Hand) :
    (context.walkOn walk).Obeys (Go context.task isPipeline) Over ⟨hand, .calm⟩ := by
  unfold RunContext.walkOn
  refine (context.turn_goes walk).bind fun turn course calm => ?_
  obtain ⟨hand, phase⟩ := course
  cases calm
  cases turn with
  | finished memory result => exact rfl
  | next walk' closer => exact walkOn_goes walk' hand
termination_by walk.left context.graph
decreasing_by assumption

/-- **A run takes its steps in the order of a pipeline.** -/
theorem run_goes (memory : Memory) (entry : String) :
    (context.run memory entry).Obeys (Go context.task isPipeline) Over ⟨.empty, .calm⟩ :=
  context.walkOn_goes _ _

theorem onNode_goes (entry : String) {run : Node → Acting RunResult}
    (goes : ∀ node, (run node).Obeys (Go context.task isPipeline) Over ⟨hand, .calm⟩) :
    (context.onNode entry run).Obeys (Go context.task isPipeline) Over ⟨hand, .calm⟩ := by
  unfold RunContext.onNode
  split
  · exact rfl
  · refine idle_goes (idle_reads _) fun isStopped => ?_
    split
    · exact rfl
    · exact goes _

/-- A visit of the one attempt, if there is a frame, has what it refers to in hand. -/
theorem attemptOn_goes (node : Node) (frame : Option Frame) :
    (context.attemptOn node frame).Obeys (Go context.task isPipeline)
      (fun course attempt => course.phase = .calm ∧ course.hand.visit = hand.visit ∧ ∀ visit,
        course.hand.Supports ⟨visit, node.name, attempt.1, .invalid, attempt.2⟩)
      ⟨hand, .calm⟩ := by
  cases frame with
  | none =>
    refine ⟨rfl, rfl, fun visit => ⟨fun valid => ?_, fun valid => ?_, fun completed => ?_⟩⟩
    · cases valid
    · cases valid
    · cases completed
  | some frame =>
    refine (context.recognize_goes frame node).bind fun result course attempted => ?_
    obtain ⟨named, rfl⟩ := attempted
    exact ⟨rfl, rfl, fun visit => supports_attempt List.mem_cons_self named visit id⟩

theorem recognizeOnce_goes (entry : String) :
    (context.recognizeOnce entry).Obeys (Go context.task isPipeline) Over ⟨.empty, .calm⟩ := by
  refine context.onNode_goes entry fun node => ?_
  refine .transact_bind fun engine => ⟨_, .drawVisit engine, ?_⟩
  refine idle_goes (idle.capture context.controller) fun reply => ?_
  cases reply with
  | crashed => exact rfl
  | returned frame =>
    refine (context.attemptOn_goes node frame).bind ?_
    rintro ⟨reco, found⟩ ⟨hand, phase⟩ ⟨rfl, visit, supports⟩
    exact context.recordVisit_over visit (supports _)

/-- A single action follows no hit that was announced. -/
theorem actOnce_goes (entry : String) (box : Rect) (single : ¬ isPipeline) :
    (context.actOnce entry box).Obeys (Go context.task isPipeline) Over ⟨.empty, .calm⟩ := by
  refine context.onNode_goes entry fun node => ?_
  refine .transact_bind fun drawn => ⟨_, .drawReco drawn, .modify fun engine => ?_⟩
  let hit : RecoResult :=
    ⟨(drawn.ids.draw .reco).1, node.name, RecoParam.directHit.kind, some box, .null⟩
  refine ⟨⟨⟨[hit], [], none, none⟩, .calm⟩, .giveReco hit engine, ?_⟩
  refine .transact_bind fun engine => ⟨_, .drawVisit engine, ?_⟩
  have held : (Hand.withVisit ⟨[hit], [], none, none⟩ (engine.ids.draw .node).1).Hits node hit :=
    ⟨List.mem_cons_self, rfl, rfl⟩
  refine (context.act_goes _ node hit fun isPipeline => absurd isPipeline single).bind ?_
  rintro acted course done
  cases acted with
  | unfinished => exact done
  | notStarted =>
    cases done
    exact context.recordVisit_over rfl (supports_hit held _)
  | done action success =>
    cases done
    exact context.recordVisit_over rfl (supports_action held _ _ _)

end RunContext

end ScreenPilot
