import ScreenPilot.Proofs.Activity.Rewordings
import ScreenPilot.Proofs.Run.Stock
import ScreenPilot.Run.Single

/-!
# Nodes in another guise

A visit goes by the name of its node, by the recognition, the action and the focus, and by the
waits and delays around the action. A change of nodes that keeps these is a guise (`Node.Guise`).
The parts of a visit are then the same for the node and for its guise, but that other ports are
asked about the guise; so they are the same in other words (`Guised`).
-/

set_option autoImplicit false

namespace ScreenPilot

open Activity Engine

/-- A change of nodes keeps all that a visit goes by. -/
structure Node.Guise (change : Node → Node) : Prop where
  name : ∀ node, (change node).name = node.name
  recognition : ∀ node, (change node).recognition = node.recognition
  action : ∀ node, (change node).action = node.action
  focus : ∀ node, (change node).focus = node.focus
  preWait : ∀ node, (change node).preWait = node.preWait
  postWait : ∀ node, (change node).postWait = node.postWait
  preDelay : ∀ node, (change node).preDelay = node.preDelay
  postDelay : ∀ node, (change node).postDelay = node.postDelay

namespace Engine

/-- The question about the changed node. -/
def Question.change (change : Node → Node) : Question → Question
  | .recognize recognizer frame node => .recognize recognizer frame (change node)
  | .act actuator hit node => .act actuator hit (change node)
  | .awaitStill actuator wait node => .awaitStill actuator wait (change node)
  | question => question

theorem answer_change (change : Node → Node) (question : Question) :
    Answer (question.change change) = Answer question := by
  cases question <;> rfl

/-- Questions about nodes are put about the changed nodes. -/
def changing (change : Node → Node) : Rewording outside outside where
  put := Question.change change
  back question := cast (answer_change change question)

end Engine

/-- The second activity is the first one with questions about changed nodes. -/
abbrev Guised (change : Node → Node) {α : Type} (activity activity' : Acting α) : Prop :=
  activity.Rewords (changing change) Eq Eq activity'

variable {change : Node → Node}

theorem guised_step {α : Type} (act : Engine → Engine) (view : Engine → α) :
    Guised change (.step act fun engine => .done (view engine))
      (.step act fun engine => .done (view engine)) :=
  .same fun _ => .done rfl

/-- What asks about no node is the same with other questions about nodes. -/
theorem kept_guised : Kept fun _ activity => Guised change activity activity where
  done _ := .done rfl
  bind := .after
  reads _ := .same fun _ => .done rfl
  count _ := .same fun _ => .done rfl
  now := .ask fun _ => .done rfl
  rest _ _ := .ask fun _ => .done rfl
  frame _ := .ask fun _ => .done rfl
  send _ _ := .ask fun _ => .done rfl
  recognitionPlugIn _ _ := .ask fun _ => .done rfl
  actionPlugIn _ _ := .ask fun _ => .done rfl
  analyze _ _ _ := .ask fun _ => .done rfl
  perform _ _ _ _ _ := .ask fun _ => .done rfl

namespace Node.Guise

variable (guise : Node.Guise change) (node : Node)
include guise

theorem find (recognizer : Recognizer) (frame : Frame) :
    Guised change (recognizer.find frame node) (recognizer.find frame (change node)) := by
  cases recognizer with
  | stock resource =>
    unfold Recognizer.find
    rw [guise.recognition]
    exact kept_guised.findStock resource frame node.recognition
  | replaced recognizer => exact .ask fun _ => .done rfl

theorem actuate (actuator : Actuator) (hit : RecoResult) :
    Guised change (actuator.act hit node) (actuator.act hit (change node)) := by
  cases actuator with
  | stock controller resource =>
    unfold Actuator.act
    rw [guise.action]
    exact kept_guised.actStock controller resource hit node.action
  | replaced actuator => exact .ask fun _ => .done rfl

omit guise in
theorem awaitStill (actuator : Actuator) (signal : StopSignal) (patience : Nat)
    (wait : WaitFreezes) :
    Guised change (actuator.awaitStill signal patience wait node)
      (actuator.awaitStill signal patience wait (change node)) := by
  cases actuator with
  | stock controller resource => exact kept_guised.awaitStillStock signal patience controller wait
  | replaced actuator =>
    refine .after (.ask fun _ => .done rfl) fun reply => ?_
    cases reply <;> exact .pure rfl

variable (context : RunContext) (graph : Graph)

theorem event (kind : StepKind) (phase : StepPhase) (visit : NodeId) (reco : RecoId)
    (action : ActionId) : { context with graph }.event (change node) kind phase visit reco action =
      context.event node kind phase visit reco action := by
  simp only [RunContext.event, guise.name, guise.focus]
  rfl

theorem recognize (frame : Frame) :
    Guised change (context.recognize frame node)
      ({ context with graph }.recognize frame (change node)) := by
  unfold RunContext.recognize
  simp only [guise.event, RunContext.recoResult, guise.name, guise.recognition]
  exact .after (guised_step _ _) fun _ => .after (guised_step _ _) fun _ =>
    .after (guise.find node context.recognizer frame) fun _ =>
      .after (guised_step _ _) fun _ => .after (guised_step _ _) fun _ => .pure rfl

omit guise in
theorem settle (wait : WaitFreezes) (delay : UInt64) :
    Guised change (context.settle node wait delay)
      ({ context with graph }.settle (change node) wait delay) := by
  have awaits : Guised change (context.awaitStill node wait)
      ({ context with graph }.awaitStill (change node) wait) := by
    unfold RunContext.awaitStill
    split
    · exact awaitStill node context.actuator context.signal context.patience wait
    · exact .pure rfl
  have cut : ∀ waited, Guised change (context.wasCutShort waited)
      ({ context with graph }.wasCutShort waited) := by
    intro waited
    unfold RunContext.wasCutShort
    split
    · exact .pure rfl
    · exact kept_guised.isStopped _
  refine awaits.after fun waited => ?_
  split
  · exact .pure rfl
  · refine (cut waited).after fun cutShort => ?_
    split
    · exact .pure rfl
    · exact .after (kept_guised.sleep _ _) fun _ => .pure rfl

theorem act (visit : NodeId) (hit : RecoResult) :
    Guised change (context.act visit node hit)
      ({ context with graph }.act visit (change node) hit) := by
  unfold RunContext.act
  simp only [guise.event, guise.name, guise.preWait, guise.postWait, guise.preDelay,
    guise.postDelay]
  refine .after (settle node context graph _ _) fun ready => ?_
  rcases ready with _ | _ | _
  · exact .pure rfl
  · exact .pure rfl
  · refine .after (guised_step _ _) fun id => .after (guised_step _ _) fun _ => ?_
    refine .after (guise.actuate node context.actuator hit) fun reply => ?_
    refine .after (guised_step _ _) fun _ => .after (guised_step _ _) fun _ => ?_
    refine .after (settle node context graph _ _) fun settled => ?_
    cases settled <;> exact .pure rfl

omit guise in
theorem recordVisit (detail : NodeDetail) :
    Guised change (context.recordVisit detail) ({ context with graph }.recordVisit detail) :=
  .after (.same fun _ => .same fun _ => .done rfl) fun _ => guised_step _ _

/-! ## Runs of one node -/

variable {context} {graph} {entry : String}
  (changed : graph.find? entry = (context.graph.find? entry).map change)

omit guise in
include changed in
theorem onNode {run run' : Node → Acting RunResult}
    (runs : ∀ node, Guised change (run node) (run' (change node))) :
    Guised change (context.onNode entry run) ({ context with graph }.onNode entry run') := by
  unfold RunContext.onNode
  dsimp only
  rw [changed]
  cases context.graph.find? entry with
  | none => exact .pure rfl
  | some node =>
    refine .after (kept_guised.isStopped _) fun stopped => ?_
    split
    · exact .pure rfl
    · exact runs node

include changed in
/-- **To recognize the guise of a node once is to recognize the node once.** -/
theorem recognizeOnce :
    { context with graph }.recognizeOnce entry =
      (context.recognizeOnce entry).reword (changing change) := by
  refine rewords_iff.mp (onNode changed fun node => ?_)
  refine .after (guised_step _ _) fun visit => ?_
  refine .after (kept_guised.capture _) fun reply => ?_
  rw [guise.name]
  match reply with
  | .crashed => exact .pure rfl
  | .returned none =>
    exact .after (.pure rfl) fun _ => .after (recordVisit context graph _) fun _ => .pure rfl
  | .returned (some frame) =>
    refine .after (.after (guise.recognize node context graph frame) fun _ => .pure rfl) fun _ => ?_
    exact .after (recordVisit context graph _) fun _ => .pure rfl

include changed in
/-- **To act on the guise of a node once is to act on the node once.** -/
theorem actOnce (box : Rect) :
    { context with graph }.actOnce entry box =
      (context.actOnce entry box).reword (changing change) := by
  refine rewords_iff.mp (onNode changed fun node => ?_)
  rw [guise.name]
  refine .after (guised_step _ _) fun id => .after (guised_step _ _) fun _ => ?_
  refine .after (guised_step _ _) fun visit => ?_
  refine .after (guise.act node context graph visit _) fun acted => ?_
  cases acted with
  | unfinished => exact .pure rfl
  | notStarted | done => exact .after (recordVisit context graph _) fun _ => .pure rfl

end Node.Guise

end ScreenPilot
