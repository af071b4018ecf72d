import ScreenPilot.Proofs.Activity.Among
import ScreenPilot.Run.Traverse

/-!
# Runs as sequences of turns

A run ends with its last turn, which it reaches by turns that go on
(`run_ends`). So what every turn hands on to the next one holds at the last
turn of any run, however long it is (`Passes.keeps`).
-/

set_option autoImplicit false

namespace ScreenPilot

/-- What holds of the walk a turn goes on with, or of the end it comes to. -/
def Turn.Holds {graph : Graph} {walk : Walk} (going : Walk → Prop)
    (last : Memory → RunResult → Prop) : Turn graph walk → Prop
  | .finished memory result => last memory result
  | .next walk' _ => going walk'

namespace RunContext

open Activity Engine

variable (context : RunContext)

/-- A walk whose list is exhausted has less left to do. -/
theorem exhausted_closer {walk : Walk} (something : walk.candidates ≠ []) :
    Walk.Closer context.graph { walk with candidates := [] } walk := by
  refine Prod.Lex.right _ (Prod.Lex.right _ ?_)
  simp [something]

/-- Goes on with what came of looking for the candidates. -/
def heed (walk : Walk) (something : walk.candidates ≠ []) (owner : Node) :
    Scan context.graph walk.memory → Acting (Turn context.graph walk)
  | .hit position node reco => context.afterHit walk position node reco
  | .missed last => context.afterMiss walk owner last
  | .exhausted => pure (.next { walk with candidates := [] } (context.exhausted_closer something))
  | .stopped => pure (.finished walk.memory (.ended .stopped))
  | .unknown name => pure (failed walk.memory (.unknownNode name))
  | .crashed => pure (.finished walk.memory .crashed)
  | .unfinished => pure (.finished walk.memory .unfinished)

theorem look_of_absent {walk : Walk} (something : walk.candidates ≠ [])
    (absent : context.graph.find? walk.owner = none) :
    context.look walk something = pure (failed walk.memory (.unknownNode walk.owner)) := by
  unfold look
  rw [absent]

/-- A walk whose owner is in the graph looks for its candidates. -/
theorem look_of_found {walk : Walk} (something : walk.candidates ≠ []) {owner : Node}
    (found : context.graph.find? walk.owner = some owner) :
    context.look walk something =
      context.scan walk.memory owner walk.candidates walk.interruptAt >>=
        context.heed walk something owner := by
  unfold look
  rw [found]
  rfl

/-- From a walk on, turns lead to another walk. -/
inductive Passes (setting : Setting Engine) (walk : Walk) (engine : Engine) :
    Walk → Engine → Prop where
  | here : Passes setting walk engine walk engine
  | turn {between after : Walk} {middle final : Engine}
      {closer : after.Closer context.graph between}
      (before : Passes setting walk engine between middle)
      (ends : (context.turn between).Ends setting middle (.next after closer) final) :
      Passes setting walk engine after final

variable {context} {setting : Setting Engine}

/-- A turn that goes on may come first. -/
theorem Passes.head {walk between after : Walk} {engine middle final : Engine}
    {closer : between.Closer context.graph walk}
    (ends : (context.turn walk).Ends setting engine (.next between closer) middle)
    (passes : context.Passes setting between middle after final) :
    context.Passes setting walk engine after final := by
  induction passes with
  | here => exact .turn .here ends
  | turn _ ends ih => exact .turn ih ends

/-- **What every turn hands on holds of every walk of a run.** -/
theorem Passes.keeps (invariant : Walk → Engine → Prop)
    (turns : ∀ walk engine, invariant walk engine →
      Ensures setting (context.turn walk) engine fun turn final =>
        turn.Holds (invariant · final) fun _ _ => True)
    {walk after : Walk} {engine final : Engine}
    (passes : context.Passes setting walk engine after final) (holds : invariant walk engine) :
    invariant after final := by
  induction passes with
  | here => exact holds
  | turn _ ends ih => exact turns _ _ ih _ _ ends

/-- **A run ends with its last turn.** -/
theorem walkOn_ends {walk : Walk} {engine final : Engine} {memory : Memory} {result : RunResult}
    (ends : (context.walkOn walk).Ends setting engine (memory, result) final) :
    ∃ last before, context.Passes setting walk engine last before ∧
      (context.turn last).Ends setting before (.finished memory result) final := by
  unfold RunContext.walkOn at ends
  obtain ⟨turn, middle, first, rest⟩ := ends_bind.mp ends
  cases turn with
  | finished memory' result' =>
    cases rest
    exact ⟨walk, engine, .here, first⟩
  | next walk' closer =>
    obtain ⟨last, before, passes, turned⟩ := walkOn_ends rest
    exact ⟨last, before, passes.head first, turned⟩
termination_by walk.left context.graph
decreasing_by exact closer

theorem run_ends {memory memory' : Memory} {entry : String} {engine final : Engine}
    {result : RunResult}
    (ends : (context.run memory entry).Ends setting engine (memory', result) final) :
    ∃ last before, context.Passes setting (Walk.start memory entry) engine last before ∧
      (context.turn last).Ends setting before (.finished memory' result) final :=
  walkOn_ends ends

end RunContext

end ScreenPilot
