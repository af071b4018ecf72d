import ScreenPilot.Proofs.Activity.Among
import ScreenPilot.Proofs.Run.Stock
import ScreenPilot.Run.Single
import ScreenPilot.Run.Traverse

/-!
# The steps of a run

What a single step of a run can do to the engine. While a run rests or a
collaborator is at work, its steps only look and count (`IdleStep`); those of an
attempt or an action also announce, number and record it (`AttemptStep`), and the
steps around them number and record visits (`RunStep`). No step of a run gives out
the identity of a task, lowers a request to stop or changes the status of a task.

What a step leaves alone is then read off these two lists, and need not be shown
again for every part of a run.
-/

set_option autoImplicit false

namespace ScreenPilot

namespace Engine

/-- A step of a run that rests or lets a collaborator work. -/
inductive IdleStep : Engine → Engine → Prop where
  | look (engine : Engine) : IdleStep engine engine
  | count (engine : Engine) (stats : Stats) : IdleStep engine { engine with stats }

/-- A step of a run that looks for candidates or acts. -/
inductive AttemptStep : Engine → Engine → Prop where
  | look (engine : Engine) : AttemptStep engine engine
  | count (engine : Engine) (stats : Stats) : AttemptStep engine { engine with stats }
  | announce (engine : Engine) (event : Notification) :
      AttemptStep engine { engine with notifier := engine.notifier.emit event }
  | drawReco (engine : Engine) :
      AttemptStep engine { engine with ids := (engine.ids.draw .reco).2 }
  | drawAction (engine : Engine) :
      AttemptStep engine { engine with ids := (engine.ids.draw .action).2 }
  | recordReco (engine : Engine) (result : RecoResult) :
      AttemptStep engine { engine with cache := engine.cache.putReco result }
  | recordAction (engine : Engine) (result : ActionResult) :
      AttemptStep engine { engine with cache := engine.cache.putAction result }

/-- A step of a run of a task. -/
inductive RunStep (task : TaskId) : Engine → Engine → Prop where
  | attempt {before after : Engine} (step : AttemptStep before after) : RunStep task before after
  | drawNode (engine : Engine) :
      RunStep task engine { engine with ids := (engine.ids.draw .node).2 }
  | recordNode (engine : Engine) (detail : NodeDetail) :
      RunStep task engine { engine with cache := engine.cache.putNode detail }
  | recordLatest (engine : Engine) (name : String) (visit : NodeId) :
      RunStep task engine { engine with cache := engine.cache.putLatest name visit }
  | pushVisit (engine : Engine) (visit : NodeId) :
      RunStep task engine { engine with cache := (engine.cache.pushVisit task visit).2 }

open Activity

/-! ## The small activities -/

theorem IdleStep.attempt {before after : Engine} (step : IdleStep before after) :
    AttemptStep before after := by
  cases step with
  | look => exact .look _
  | count => exact .count _ _

theorem ofIdle {α : Type} {activity : Acting α} (steps : activity.Steps IdleStep) :
    activity.Steps AttemptStep :=
  steps.imp fun _ _ step => step.attempt

theorem idle_reads {α : Type} (part : Engine → α) : (reads part : Acting α).Steps IdleStep :=
  .reads .look

theorem steps_reads {α : Type} (part : Engine → α) : (reads part : Acting α).Steps AttemptStep :=
  ofIdle (idle_reads part)

theorem idle_ask (question : Question) :
    (.ask question .done : Acting (Answer question)).Steps IdleStep :=
  fun _ => trivial

theorem steps_emit (event : Notification) : (emit event).Steps AttemptStep :=
  .modify fun engine => .announce engine event

/-- Collaborators only look and count. -/
theorem idle : Kept fun _ activity => activity.Steps IdleStep where
  done := .pure
  bind := .bind
  reads := idle_reads
  count _ := .modify fun engine => .count engine _
  now := idle_ask _
  rest _ _ := idle_ask _
  frame _ := idle_ask _
  send _ _ := idle_ask _
  recognitionPlugIn _ _ := idle_ask _
  actionPlugIn _ _ := idle_ask _
  analyze _ _ _ := .map _ (idle_ask _)
  perform _ _ _ _ _ := .map _ (idle_ask _)

/-! ## Recognition -/

theorem idle_find (recognizer : Recognizer) (frame : Frame) (node : Node) :
    (recognizer.find frame node).Steps IdleStep := by
  cases recognizer with
  | replaced recognizer => exact .bind (idle_ask _) fun _ => .pure _
  | stock resource => exact idle.findStock resource frame node.recognition

theorem steps_recognize (context : RunContext) (frame : Frame) (node : Node) :
    (context.recognize frame node).Steps AttemptStep := by
  refine .bind (.transact .drawReco) fun id => ?_
  refine .bind (steps_emit _) fun _ => ?_
  refine .bind (ofIdle (idle_find context.recognizer frame node)) fun found => ?_
  refine .bind (.modify fun engine => .recordReco engine _) fun _ => ?_
  exact .bind (steps_emit _) fun _ => .pure _

/-! ## Action -/

theorem idle_actuate (actuator : Actuator) (hit : RecoResult) (node : Node) :
    (actuator.act hit node).Steps IdleStep := by
  cases actuator with
  | replaced actuator => exact idle_ask _
  | stock controller resource => exact idle.actStock controller resource hit node.action

theorem idle_awaitStill (actuator : Actuator) (signal : StopSignal) (patience : Nat)
    (wait : WaitFreezes) (node : Node) :
    (actuator.awaitStill signal patience wait node).Steps IdleStep := by
  cases actuator with
  | replaced actuator =>
    refine .bind (idle_ask _) fun reply => ?_
    split <;> exact .pure _
  | stock controller resource => exact idle.awaitStillStock signal patience controller wait

theorem idle_settle (context : RunContext) (node : Node) (wait : WaitFreezes) (delay : UInt64) :
    (context.settle node wait delay).Steps IdleStep := by
  refine .bind ?_ fun waited => ?_
  · unfold RunContext.awaitStill
    split
    · exact idle_awaitStill _ _ _ _ _
    · exact .pure _
  · split
    · exact .pure _
    · refine .bind ?_ fun isCutShort => ?_
      · unfold RunContext.wasCutShort
        split
        · exact .pure _
        · exact idle_reads _
      · split
        · exact .pure _
        · exact .bind (idle.sleep _ _) fun _ => .pure _

theorem steps_act (context : RunContext) (visit : NodeId) (node : Node) (hit : RecoResult) :
    (context.act visit node hit).Steps AttemptStep := by
  refine .bind (ofIdle (idle_settle _ _ _ _)) fun ready => ?_
  split
  · exact .pure _
  · exact .pure _
  · refine .bind (.transact .drawAction) fun id => ?_
    refine .bind (steps_emit _) fun _ => ?_
    refine .bind (ofIdle (idle_actuate _ _ _)) fun reply => ?_
    refine .bind (.modify fun engine => .recordAction engine _) fun _ => ?_
    refine .bind (steps_emit _) fun _ => ?_
    refine .bind (ofIdle (idle_settle _ _ _ _)) fun settled => ?_
    split <;> exact .pure _

/-! ## Looking for candidates -/

theorem steps_tryFrom (context : RunContext) (memory : Memory) (frame : Frame)
    (names seen : List String) (position : Nat) (tried : Bool)
    (last : Option (String × RecoId)) :
    (context.tryFrom memory frame position seen tried last names).Steps AttemptStep := by
  induction names generalizing position seen tried last with
  | nil => exact .pure _
  | cons name names ih =>
    unfold RunContext.tryFrom
    split
    · exact ih _ _ _ _
    · split
      · exact .pure _
      · split
        · exact ih _ _ _ _
        · refine .bind (steps_recognize _ _ _) fun reco => ?_
          split
          · exact .pure _
          · exact ih _ _ _ _

theorem idle_betweenRounds (context : RunContext) (owner : Node) (deadline round : Nat) :
    (context.betweenRounds owner deadline round).Steps IdleStep := by
  refine .bind (idle_ask _) fun time => ?_
  split
  · exact .pure _
  · exact .bind (idle_ask _) fun _ => .bind (idle.sleep _ _) fun _ => .pure _

theorem steps_tryAll (context : RunContext) (memory : Memory) (candidates : List String)
    (last : Option (String × RecoId)) :
    (context.tryAll memory candidates last).Steps AttemptStep := by
  refine .bind (ofIdle (idle.capture _)) fun reply => ?_
  split
  · exact .pure _
  · exact .pure _
  · exact .map _ (steps_tryFrom _ _ _ _ _ _ _ _)

theorem steps_scanRounds (context : RunContext) (memory : Memory) (owner : Node)
    (candidates : List String) (interruptAt deadline patience : Nat)
    (last : Option (String × RecoId)) :
    (context.scanRounds memory owner candidates interruptAt deadline patience last).Steps
      AttemptStep := by
  induction patience generalizing last with
  | zero => exact .pure _
  | succ patience ih =>
    refine .bind (steps_reads _) fun isStopped => ?_
    split
    · exact .pure _
    · refine .bind (ofIdle (idle_ask _)) fun start => .bind (steps_tryAll _ _ _ _) fun round => ?_
      split
      · exact .pure _
      · exact .pure _
      · exact .pure _
      · exact .pure _
      · refine .bind (ofIdle (idle_betweenRounds _ _ _ _)) fun goOn => ?_
        split
        · exact .pure _
        · exact .pure _
        · exact ih _

theorem steps_scan (context : RunContext) (memory : Memory) (owner : Node)
    (candidates : List String) (interruptAt : Nat) :
    (context.scan memory owner candidates interruptAt).Steps AttemptStep :=
  .bind (ofIdle (idle_ask _)) fun _ => steps_scanRounds _ _ _ _ _ _ _ _

/-! ## Visits and turns -/

theorem ofAttempt {α : Type} {task : TaskId} {activity : Acting α}
    (steps : activity.Steps AttemptStep) : activity.Steps (RunStep task) :=
  steps.imp fun _ _ => .attempt

theorem steps_draw_node (task : TaskId) : (draw .node).Steps (RunStep task) :=
  .transact .drawNode

theorem steps_recordVisit (context : RunContext) (detail : NodeDetail) :
    (context.recordVisit detail).Steps (RunStep context.task) := by
  refine .bind ?_ fun _ => .modify fun engine => .pushVisit engine detail.id
  intro before
  exact ⟨.recordNode before detail,
    fun between => ⟨.recordLatest between detail.name detail.id, trivial⟩⟩

variable (context : RunContext)

theorem steps_afterMiss (walk : Walk) (owner : Node) (last : Option (String × RecoId)) :
    (context.afterMiss walk owner last).Steps (RunStep context.task) := by
  refine .bind (steps_draw_node _) fun visit => .bind (steps_recordVisit _ _) fun _ => ?_
  split
  · split <;> exact .pure _
  · exact .pure _

theorem steps_afterHit (walk : Walk) (position : Nat)
    (hit : Memory.Eligible context.graph walk.memory) (reco : RecoResult) :
    (context.afterHit walk position hit reco).Steps (RunStep context.task) := by
  refine .bind (steps_draw_node _) fun visit => ?_
  refine .bind (ofAttempt (steps_act _ _ _ _)) fun acted => ?_
  split
  · exact .pure _
  · exact .bind (steps_recordVisit _ _) fun _ => .pure _
  · refine .bind (steps_recordVisit _ _) fun _ => ?_
    split
    · exact .pure _
    · split
      · exact .pure _
      · split <;> exact .pure _

theorem steps_look (walk : Walk) (something : walk.candidates ≠ []) :
    (context.look walk something).Steps (RunStep context.task) := by
  unfold RunContext.look
  split
  · exact .pure _
  · refine .bind (ofAttempt (steps_scan _ _ _ _ _)) fun scan => ?_
    split
    · exact steps_afterHit context walk _ _ _
    · exact steps_afterMiss context walk _ _
    all_goals exact .pure _

theorem steps_turn (walk : Walk) : (context.turn walk).Steps (RunStep context.task) := by
  refine .bind (ofAttempt (steps_reads _)) fun isStopped => ?_
  split
  · exact .pure _
  · split
    · exact .pure _
    · exact steps_look context walk _

/-! ## Runs -/

theorem steps_walkOn (walk : Walk) : (context.walkOn walk).Steps (RunStep context.task) := by
  unfold RunContext.walkOn
  refine .bind (steps_turn context walk) fun turn => ?_
  cases turn with
  | finished memory result => exact .pure _
  | next walk' closer => exact steps_walkOn walk'
termination_by walk.left context.graph
decreasing_by assumption

theorem steps_onNode (entry : String) {run : Node → Acting RunResult}
    (steps : ∀ node, (run node).Steps (RunStep context.task)) :
    (context.onNode entry run).Steps (RunStep context.task) := by
  unfold RunContext.onNode
  split
  · exact .pure _
  · refine .bind (ofAttempt (steps_reads _)) fun isStopped => ?_
    split
    · exact .pure _
    · exact steps _

theorem steps_recognizeOnce (entry : String) :
    (context.recognizeOnce entry).Steps (RunStep context.task) := by
  refine steps_onNode context entry fun node => ?_
  refine .bind (steps_draw_node _) fun visit => .bind (ofAttempt (ofIdle (idle.capture _))) fun reply => ?_
  split
  · exact .pure _
  · rename_i frame
    refine .bind (ofAttempt ?_) fun found => .bind (steps_recordVisit _ _) fun _ => .pure _
    cases frame with
    | none => exact .pure _
    | some frame => exact .bind (steps_recognize _ _ _) fun _ => .pure _

theorem steps_actOnce (entry : String) (box : Rect) :
    (context.actOnce entry box).Steps (RunStep context.task) := by
  refine steps_onNode context entry fun node => ?_
  refine .bind (ofAttempt (.transact .drawReco)) fun id => ?_
  refine .bind (ofAttempt (.modify fun engine => .recordReco engine _)) fun _ => ?_
  refine .bind (steps_draw_node _) fun visit => ?_
  refine .bind (ofAttempt (steps_act _ _ _ _)) fun acted => ?_
  split
  · exact .pure _
  · exact .bind (steps_recordVisit _ _) fun _ => .pure _
  · exact .bind (steps_recordVisit _ _) fun _ => .pure _

end Engine

end ScreenPilot
