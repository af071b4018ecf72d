import ScreenPilot.Proofs.Activity.Handlers
import ScreenPilot.Proofs.Run.Patience
import ScreenPilot.Proofs.Run.Stock
import ScreenPilot.Run.Single

/-!
# Runs with other ports

A run reaches its recognizer and its actuator at three places only: when it looks for a
node in a frame, when it acts on a hit, and when it waits for a still screen. So if two
runs have ports that are alike there, and to be alike is kept by one activity after the
other, the runs are alike (`Alike.run`). What is left open by a wait is left open by all
that follows.

A run with stock ports is then one with replaced ports whose questions the stock ports
carry out (`handled`). That run is the one to speak of what the ports are called for.

A run is also like itself in every property that is kept by one activity after the other, if
steps, questions and the calls of ports have it (`KeptByPorts.run`).
-/

set_option autoImplicit false

namespace ScreenPilot

namespace Actuator

open Engine

/-- What is answered to a call to wait; nothing if the wait goes on. -/
def Waited.reply : Waited → Option (Reply Bool)
  | .ended good => some (.returned good)
  | .crashed => some .crashed
  | .unfinished => none

/-- Whether a still screen was seen; nothing if the wait goes on. -/
def Waited.seen (waited : Waited) : Option Bool := waited.reply.map (Reply.getD · false)

/-- Another actuator says itself what came of a wait. -/
theorem reply_awaitStill_replaced (actuator : Handle) (signal : StopSignal) (patience : Nat)
    (wait : WaitFreezes) (node : Node) :
    Waited.reply <$> (replaced actuator).awaitStill signal patience wait node =
      some <$> .ask (Question.awaitStill actuator wait node) .done := by
  refine congrArg _ (funext fun reply => ?_)
  cases reply <;> rfl

theorem seen_awaitStill_replaced (actuator : Handle) (signal : StopSignal) (patience : Nat)
    (wait : WaitFreezes) (node : Node) :
    Waited.seen <$> (replaced actuator).awaitStill signal patience wait node =
      .ask (Question.awaitStill actuator wait node) fun reply =>
        .done (some (Reply.getD reply false)) := by
  refine congrArg _ (funext fun reply => ?_)
  cases reply <;> rfl

end Actuator

namespace RunContext

open Activity Engine

/-- The run with other ports. -/
abbrev withPorts (context : RunContext) (recognizer : Recognizer) (actuator : Actuator) :
    RunContext :=
  { context with recognizer, actuator }

/-- To be alike is kept by one activity after the other, and activities are alike that find
a node in a frame, act on a hit or wait for a still screen by the ports of a run and by
other ones. -/
structure Alike (context : RunContext) (recognizer : Recognizer) (actuator : Actuator)
    (alike : (α : Type) → (α → Prop) → Acting α → Acting α → Prop) : Prop where
  done : ∀ {α : Type} (isOpen : α → Prop) (value : α),
    alike α isOpen (.done value) (.done value)
  bind : ∀ {α β : Type} {isOpen : α → Prop} {isOpen' : β → Prop} {first first' : Acting α}
    {next next' : α → Acting β}, alike α isOpen first first' →
    (∀ value, isOpen value → ∃ last, next value = .done last ∧ isOpen' last) →
    (∀ value, alike β isOpen' (next value) (next' value)) →
    alike β isOpen' (first >>= next) (first' >>= next')
  step : ∀ {α : Type} (change : Engine → Engine) (view : Engine → α),
    alike α (fun _ => False) (.step change fun engine => .done (view engine))
      (.step change fun engine => .done (view engine))
  now : alike Nat (fun _ => False) now now
  rest : ∀ poll duration, alike Unit (fun _ => False) (.ask (Question.rest poll duration) .done)
    (.ask (Question.rest poll duration) .done)
  capture : alike (Reply (Option Frame)) (fun _ => False)
    (.ask (Question.capture context.controller) .done)
    (.ask (Question.capture context.controller) .done)
  find : ∀ frame node, alike (Option Recognition) (fun _ => False)
    (context.recognizer.find frame node) (recognizer.find frame node)
  act : ∀ hit node, alike Bool (fun _ => False)
    ((Reply.getD · false) <$> context.actuator.act hit node)
    ((Reply.getD · false) <$> actuator.act hit node)
  wait : ∀ wait node, alike (Option Bool) (· = none)
    (Actuator.Waited.seen <$>
      context.actuator.awaitStill context.signal context.patience wait node)
    (Actuator.Waited.seen <$> actuator.awaitStill context.signal context.patience wait node)

/-! ## The rests around an action -/

/-- Whether the run is to go on after a wait, and the rest that follows. -/
def settleAfter (context : RunContext) (delay : UInt64) :
    Option Bool → Acting (Option Bool)
  | none => pure none
  | some good => do
    if ← (if good then pure false else isStopped context.signal) then pure (some false)
    else return some (← sleep context.signal (nanoseconds delay))

/-- The wait for a still screen, as the run sees it. -/
def seeStill (context : RunContext) (node : Node) (wait : WaitFreezes) : Acting (Option Bool) :=
  if wait.isEnabled then
    Actuator.Waited.seen <$>
      context.actuator.awaitStill context.signal context.patience wait node
  else pure (some true)

/-- That a wait crashed is as if no still screen was seen. -/
theorem settle_eq (context : RunContext) (node : Node) (wait : WaitFreezes) (delay : UInt64) :
    context.settle node wait delay =
      context.seeStill node wait >>= context.settleAfter delay := by
  have seen : context.seeStill node wait =
      Actuator.Waited.seen <$> context.awaitStill node wait := by
    unfold seeStill awaitStill
    split <;> rfl
  rw [seen, map_eq_pure_bind, bind_assoc]
  refine congrArg _ (funext fun waited => ?_)
  rw [pure_bind]
  cases waited with
  | ended good => cases good <;> rfl
  | crashed => rfl
  | unfinished => rfl

/-! ## Actions -/

/-- What a run does when the action of a node has succeeded or failed. -/
def report (context : RunContext) (visit : NodeId) (node : Node) (hit : RecoResult)
    (id : ActionId) (success : Bool) : Acting Acted := do
  modifyCache (Cache.putAction ⟨id, node.name, success⟩)
  emit (context.event node .action (.ofSuccess success) visit hit.id id)
  match ← context.settle node node.postWait node.postDelay with
  | none => pure .unfinished
  | some _ => pure (.done id success)

/-- The action of a node that was hit, once the rests before it are over. -/
def actWhenReady (context : RunContext) (visit : NodeId) (node : Node) (hit : RecoResult) :
    Option Bool → Acting Acted
  | none => pure .unfinished
  | some false => pure .notStarted
  | some true => do
    let id ← draw .action
    emit (context.event node .action .starting visit hit.id id)
    (Reply.getD · false) <$> context.actuator.act hit node >>=
      context.report visit node hit id

/-- That an action crashed is as if it had failed. -/
theorem act_eq_settle (context : RunContext) (visit : NodeId) (node : Node) (hit : RecoResult) :
    context.act visit node hit =
      context.settle node node.preWait node.preDelay >>=
        context.actWhenReady visit node hit := by
  unfold act
  refine congrArg _ (funext fun ready => ?_)
  rcases ready with _ | _ | _
  · rfl
  · rfl
  · simp only [actWhenReady, map_eq_pure_bind, bind_assoc, pure_bind]
    rfl

namespace Alike

variable {context : RunContext} {recognizer : Recognizer} {actuator : Actuator}
  {alike : (α : Type) → (α → Prop) → Acting α → Acting α → Prop}
  (same : context.Alike recognizer actuator alike)
include same

/-- What follows activities that are alike and leave nothing open. -/
theorem after {α β : Type} {isOpen : β → Prop} {first first' : Acting α}
    {next next' : α → Acting β} (firsts : alike α (fun _ => False) first first')
    (nexts : ∀ value, alike β isOpen (next value) (next' value)) :
    alike β isOpen (first >>= next) (first' >>= next') :=
  same.bind firsts nofun nexts

/-- An activity that takes a step. -/
theorem modify (change : Engine → Engine) :
    alike Unit (fun _ => False) (Activity.modify change) (Activity.modify change) :=
  same.step change fun _ => ()

theorem isStopped (signal : StopSignal) :
    alike Bool (fun _ => False) (isStopped signal) (isStopped signal) :=
  same.step id fun engine => engine.stopped.contains signal.task

theorem draw (kind : IdKind) : alike (Id kind) (fun _ => False) (draw kind) (draw kind) :=
  same.step _ _

theorem sleep (signal : StopSignal) (duration : Nat) :
    alike Bool (fun _ => False) (sleep signal duration) (sleep signal duration) := by
  refine same.after (same.isStopped signal) fun stopped => ?_
  split
  · exact same.done _ _
  · split
    · exact same.done _ _
    · exact same.after (same.rest _ _) fun _ =>
        same.after (same.isStopped signal) fun _ => same.done _ _

theorem captures :
    alike (Reply (Option Frame)) (fun _ => False) (Engine.capture context.controller)
      (Engine.capture context.controller) := by
  refine same.after same.capture fun reply => ?_
  split
  · exact same.done _ _
  · exact same.after (same.modify _) fun _ => same.done _ _

/-! ## Visits -/

theorem recognize (frame : Frame) (node : Node) :
    alike RecoResult (fun _ => False) (context.recognize frame node)
      ((context.withPorts recognizer actuator).recognize frame node) :=
  same.after (same.draw .reco) fun _ => same.after (same.modify _) fun _ =>
    same.after (same.find frame node) fun _ => same.after (same.modify _) fun _ =>
      same.after (same.modify _) fun _ => same.done _ _

theorem settle (node : Node) (wait : WaitFreezes) (delay : UInt64) :
    alike (Option Bool) (· = none) (context.settle node wait delay)
      ((context.withPorts recognizer actuator).settle node wait delay) := by
  rw [settle_eq, settle_eq]
  have sees : alike (Option Bool) (· = none) (context.seeStill node wait)
      ((context.withPorts recognizer actuator).seeStill node wait) := by
    unfold seeStill
    split
    · exact same.wait wait node
    · exact same.done _ _
  refine same.bind sees ?_ fun seen => ?_
  · rintro _ rfl
    exact ⟨none, rfl, rfl⟩
  · cases seen with
    | none => exact same.done _ _
    | some good =>
      have looks : alike Bool (fun _ => False)
          (if good then pure false else Engine.isStopped context.signal)
          (if good then pure false else Engine.isStopped context.signal) := by
        split
        · exact same.done _ _
        · exact same.isStopped _
      refine same.after looks fun cutShort => ?_
      split
      · exact same.done _ _
      · exact same.after (same.sleep _ _) fun _ => same.done _ _

theorem report (visit : NodeId) (node : Node) (hit : RecoResult) (id : ActionId)
    (success : Bool) :
    alike Acted (· = .unfinished) (context.report visit node hit id success)
      ((context.withPorts recognizer actuator).report visit node hit id success) := by
  refine same.after (same.modify _) fun _ => same.after (same.modify _) fun _ => ?_
  refine same.bind (same.settle node _ _) ?_ fun settled => ?_
  · rintro _ rfl
    exact ⟨.unfinished, rfl, rfl⟩
  · split <;> exact same.done _ _

theorem acts (visit : NodeId) (node : Node) (hit : RecoResult) :
    alike Acted (· = .unfinished) (context.act visit node hit)
      ((context.withPorts recognizer actuator).act visit node hit) := by
  rw [act_eq_settle, act_eq_settle]
  refine same.bind (same.settle node _ _) ?_ fun ready => ?_
  · rintro _ rfl
    exact ⟨.unfinished, rfl, rfl⟩
  · rcases ready with _ | _ | _
    · exact same.done _ _
    · exact same.done _ _
    · exact same.after (same.draw .action) fun id => same.after (same.modify _) fun _ =>
        same.after (same.act hit node) fun success => same.report visit node hit id success

theorem recordVisit (detail : NodeDetail) :
    alike Unit (fun _ => False) (context.recordVisit detail)
      ((context.withPorts recognizer actuator).recordVisit detail) :=
  same.after (same.after (same.modify _) fun _ => same.modify _) fun _ => same.modify _

/-! ## Scans -/

theorem tryFrom (memory : Memory) (frame : Frame) (candidates : List String) (position : Nat)
    (seen : List String) (tried : Bool) (last : Option (String × RecoId)) :
    alike (Round context.graph memory) (fun _ => False)
      (context.tryFrom memory frame position seen tried last candidates)
      ((context.withPorts recognizer actuator).tryFrom memory frame position seen tried last
        candidates) := by
  induction candidates generalizing position seen tried last with
  | nil => exact same.done _ _
  | cons name names ih =>
    unfold RunContext.tryFrom
    dsimp only
    split
    · exact ih _ _ _ _
    · split
      · exact same.done _ _
      · split
        · exact ih _ _ _ _
        · refine same.after (same.recognize frame _) fun reco => ?_
          split
          · exact same.done _ _
          · exact ih _ _ _ _

theorem tryAll (memory : Memory) (candidates : List String) (last : Option (String × RecoId)) :
    alike (Option (Round context.graph memory)) (fun _ => False)
      (context.tryAll memory candidates last)
      ((context.withPorts recognizer actuator).tryAll memory candidates last) := by
  refine same.after same.captures fun reply => ?_
  split
  · exact same.done _ _
  · exact same.done _ _
  · exact same.after (same.tryFrom memory _ candidates _ _ _ _) fun _ => same.done _ _

theorem betweenRounds (owner : Node) (deadline round : Nat) :
    alike (Option Bool) (fun _ => False) (context.betweenRounds owner deadline round)
      ((context.withPorts recognizer actuator).betweenRounds owner deadline round) := by
  refine same.after same.now fun time => ?_
  split
  · exact same.done _ _
  · exact same.after same.now fun _ => same.after (same.sleep _ _) fun _ => same.done _ _

theorem scanRounds (memory : Memory) (owner : Node) (candidates : List String)
    (interruptAt deadline patience : Nat) (last : Option (String × RecoId)) :
    alike (Scan context.graph memory) (fun _ => False)
      (context.scanRounds memory owner candidates interruptAt deadline patience last)
      ((context.withPorts recognizer actuator).scanRounds memory owner candidates interruptAt
        deadline patience last) := by
  induction patience generalizing last with
  | zero => exact same.done _ _
  | succ patience ih =>
    refine same.after (same.isStopped _) fun stopped => ?_
    split
    · exact same.done _ _
    · refine same.after same.now fun start => ?_
      refine same.after (same.tryAll memory candidates last) fun round => ?_
      split
      · exact same.done _ _
      · exact same.done _ _
      · exact same.done _ _
      · exact same.done _ _
      · refine same.after (same.betweenRounds owner _ _) fun goesOn => ?_
        split
        · exact same.done _ _
        · exact same.done _ _
        · exact ih _

/-! ## Turns and runs -/

theorem afterMiss (walk : Walk) (owner : Node) (last : Option (String × RecoId)) :
    alike (Turn context.graph walk) Turn.IsOpen (context.afterMiss walk owner last)
      ((context.withPorts recognizer actuator).afterMiss walk owner last) := by
  refine same.after (same.draw .node) fun visit => same.after (same.recordVisit _) fun _ => ?_
  split
  · split <;> exact same.done _ _
  · exact same.done _ _

theorem afterHit (walk : Walk) (position : Nat)
    (hit : Memory.Eligible context.graph walk.memory) (reco : RecoResult) :
    alike (Turn context.graph walk) Turn.IsOpen (context.afterHit walk position hit reco)
      ((context.withPorts recognizer actuator).afterHit walk position hit reco) := by
  refine same.after (same.draw .node) fun visit => ?_
  refine same.bind (same.acts visit hit.node reco) ?_ fun acted => ?_
  · rintro _ rfl
    exact ⟨_, rfl, _, rfl⟩
  · split
    · exact same.done _ _
    · exact same.after (same.recordVisit _) fun _ => same.done _ _
    · refine same.after (same.recordVisit _) fun _ => ?_
      split
      · exact same.done _ _
      · split
        · exact same.done _ _
        · split <;> exact same.done _ _

theorem turn (walk : Walk) :
    alike (Turn context.graph walk) Turn.IsOpen (context.turn walk)
      ((context.withPorts recognizer actuator).turn walk) := by
  refine same.after (same.isStopped _) fun stopped => ?_
  split
  · exact same.done _ _
  · split
    · exact same.done _ _
    · unfold look
      dsimp only
      split
      · exact same.done _ _
      · refine same.after (same.after same.now fun time => same.scanRounds _ _ _ _ _ _ _)
          fun scan => ?_
        split
        · exact same.afterHit walk _ _ _
        · exact same.afterMiss walk _ _
        all_goals exact same.done _ _

theorem walkOn (walk : Walk) :
    alike (Memory × RunResult) (·.2 = .unfinished) (context.walkOn walk)
      ((context.withPorts recognizer actuator).walkOn walk) := by
  unfold RunContext.walkOn
  refine same.bind (same.turn walk) ?_ fun turn => ?_
  · rintro _ ⟨memory, rfl⟩
    exact ⟨_, rfl, rfl⟩
  · cases turn with
    | finished memory result => exact same.done _ _
    | next walk' closer => exact walkOn walk'
termination_by walk.left context.graph
decreasing_by exact closer

/-- **Runs with ports that are alike are alike.** -/
theorem run (memory : Memory) (entry : String) :
    alike (Memory × RunResult) (·.2 = .unfinished) (context.run memory entry)
      ((context.withPorts recognizer actuator).run memory entry) :=
  same.walkOn _

/-! ## Runs of one node -/

theorem onNode (entry : String) {run run' : Node → Acting RunResult}
    (runs : ∀ node, alike RunResult (· = .unfinished) (run node) (run' node)) :
    alike RunResult (· = .unfinished) (context.onNode entry run)
      ((context.withPorts recognizer actuator).onNode entry run') := by
  unfold RunContext.onNode
  dsimp only
  split
  · exact same.done _ _
  · refine same.after (same.isStopped _) fun stopped => ?_
    split
    · exact same.done _ _
    · exact runs _

theorem recognizeOnce (entry : String) :
    alike RunResult (· = .unfinished) (context.recognizeOnce entry)
      ((context.withPorts recognizer actuator).recognizeOnce entry) := by
  refine same.onNode entry fun node => ?_
  refine same.after (same.draw .node) fun visit => same.after same.captures fun reply => ?_
  split
  · exact same.done _ _
  · rename_i frame
    refine same.after ?_ fun attempt => same.after (same.recordVisit _) fun _ => same.done _ _
    cases frame with
    | none => exact same.done _ _
    | some frame => exact same.after (same.recognize frame node) fun _ => same.done _ _

theorem actOnce (entry : String) (box : Rect) :
    alike RunResult (· = .unfinished) (context.actOnce entry box)
      ((context.withPorts recognizer actuator).actOnce entry box) := by
  refine same.onNode entry fun node => ?_
  refine same.after (same.draw .reco) fun id => same.after (same.modify _) fun _ => ?_
  refine same.after (same.draw .node) fun visit => ?_
  refine same.bind (same.acts visit node _) ?_ fun acted => ?_
  · rintro _ rfl
    exact ⟨_, rfl, rfl⟩
  · split
    · exact same.done _ _
    · exact same.after (same.recordVisit _) fun _ => same.done _ _
    · exact same.after (same.recordVisit _) fun _ => same.done _ _

end Alike

/-! ## Calls of the ports -/

variable (context : RunContext)

/-- The run that asks for what its ports are called for. -/
abbrev ported : RunContext := context.withPorts (.replaced 0) (.replaced 0)

/-- The ports of a run carry out what they are called for; all else is asked. -/
def port : Handlers outside Engine
  | .recognize _ frame node => (some ∘ Reply.returned) <$> context.recognizer.find frame node
  | .act _ hit node => some <$> context.actuator.act hit node
  | .awaitStill _ wait node =>
    Actuator.Waited.reply <$>
      context.actuator.awaitStill context.signal context.patience wait node
  | question => some <$> .ask question .done

/-- What is read off an answer that is always given. -/
theorem handled_call {α : Type} {isOpen : α → Prop} (question : Question)
    {carriedOut : Acting (Answer question)} (carries : context.port question = some <$> carriedOut)
    (view : Answer question → α) :
    Handled context.port isOpen (view <$> carriedOut)
      (view <$> (.ask question .done : Acting (Answer question))) :=
  Handled.call carries fun answer => .done (view answer)

/-- **A run is what its ports make of one that asks for what they are called for.** -/
theorem handled : context.Alike (.replaced 0) (.replaced 0)
    fun _ isOpen => Handled context.port isOpen where
  done _ := .done
  bind := .bind
  step _ _ := .step fun _ => .done _
  now := .asked rfl fun _ => .done _
  rest _ _ := .asked rfl fun _ => .done _
  capture := .asked rfl fun _ => .done _
  find frame node := by
    have finds : context.recognizer.find frame node =
        (Reply.getD · none) <$> Reply.returned <$> context.recognizer.find frame node := by
      rw [← comp_map]
      exact (id_map _).symm
    rw [finds]
    exact context.handled_call (.recognize 0 frame node) (comp_map _ _ _) _
  act hit node := context.handled_call (.act 0 hit node) rfl _
  wait wait node := by
    have seen : Actuator.Waited.seen <$>
          context.actuator.awaitStill context.signal context.patience wait node =
        context.port (.awaitStill 0 wait node) >>= fun reply =>
          .done (reply.map (Reply.getD · false)) := comp_map _ _ _
    rw [seen, Actuator.seen_awaitStill_replaced]
    exact .wait rfl rfl fun _ => .done _

end RunContext

open Engine

/-! ## What runs are made of -/

/-- Any step and the calls of ports that take the place of the stock ones have the property
too. -/
structure KeptByPorts (kept : (α : Type) → Acting α → Prop) : Prop extends Kept kept where
  step : ∀ {α : Type} (change : Engine → Engine) (view : Engine → α),
    kept α (.step change fun engine => .done (view engine))
  recognize : ∀ recognizer frame node, kept (Option Recognition)
    ((Reply.getD · none) <$> .ask (Question.recognize recognizer frame node) .done)
  act : ∀ actuator hit node, kept Bool
    ((Reply.getD · false) <$> .ask (Question.act actuator hit node) .done)
  awaitStill : ∀ actuator wait node, kept (Option Bool)
    ((some ∘ (Reply.getD · false)) <$> .ask (Question.awaitStill actuator wait node) .done)

namespace KeptByPorts

variable {kept : (α : Type) → Acting α → Prop} (has : KeptByPorts kept) (context : RunContext)
include has

theorem modify (change : Engine → Engine) : kept Unit (Activity.modify change) :=
  has.step change fun _ => ()

theorem find (recognizer : Recognizer) (frame : Frame) (node : Node) :
    kept (Option Recognition) (recognizer.find frame node) := by
  cases recognizer with
  | stock resource => exact has.findStock resource frame node.recognition
  | replaced recognizer => exact has.recognize recognizer frame node

theorem actuate (actuator : Actuator) (hit : RecoResult) (node : Node) :
    kept Bool ((Reply.getD · false) <$> actuator.act hit node) := by
  cases actuator with
  | stock controller resource => exact has.map _ (has.actStock controller resource hit node.action)
  | replaced actuator => exact has.act actuator hit node

theorem seeStill (actuator : Actuator) (signal : StopSignal) (patience : Nat)
    (wait : WaitFreezes) (node : Node) :
    kept (Option Bool) (Actuator.Waited.seen <$>
      actuator.awaitStill signal patience wait node) := by
  cases actuator with
  | stock controller resource => exact has.map _ (has.awaitStillStock signal patience controller wait)
  | replaced actuator =>
    rw [Actuator.seen_awaitStill_replaced]
    exact has.awaitStill actuator wait node

/-- A run is like itself, in having the property. -/
theorem alike : context.Alike context.recognizer context.actuator
    fun α _ activity other => other = activity ∧ kept α activity where
  done _ value := ⟨rfl, has.done value⟩
  bind first _ next := ⟨by rw [first.1, funext fun value => (next value).1],
    has.bind first.2 fun value => (next value).2⟩
  step change view := ⟨rfl, has.step change view⟩
  now := ⟨rfl, has.now⟩
  rest poll duration := ⟨rfl, has.rest poll duration⟩
  capture := ⟨rfl, has.frame _⟩
  find frame node := ⟨rfl, has.find _ frame node⟩
  act hit node := ⟨rfl, has.actuate _ hit node⟩
  wait wait node := ⟨rfl, has.seeStill _ _ _ wait node⟩

/-- **A run has every property that its steps and its questions have.** -/
theorem run (memory : Memory) (entry : String) :
    kept (Memory × RunResult) (context.run memory entry) :=
  ((has.alike context).run memory entry).2

theorem recognizeOnce (entry : String) : kept RunResult (context.recognizeOnce entry) :=
  ((has.alike context).recognizeOnce entry).2

theorem actOnce (entry : String) (box : Rect) : kept RunResult (context.actOnce entry box) :=
  ((has.alike context).actOnce entry box).2

end KeptByPorts

end ScreenPilot
