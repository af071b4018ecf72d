import ScreenPilot.Proofs.Run.Turns

/-!
# What a run does turn by turn

A turn sees a request to stop, or it looks for the candidates of its walk, or it has none
and resumes a node if there is one to resume (`turn_ends_iff`). What each turn has done and
what came of it is the story of a run; every run that ends has one (`run_tells`).
-/

set_option autoImplicit false

namespace ScreenPilot

/-- What a turn of a walk does. -/
inductive Deed (graph : Graph) (walk : Walk) where
  /-- It sees a request to stop. -/
  | halted
  /-- It resumes the node of this name, for there is nothing left to look for. -/
  | resumed (name : String)
  /-- It finds nothing left to look for and nothing to resume. -/
  | concluded
  /-- It finds no node that the list could belong to. -/
  | lost
  /-- It looks for the candidates. -/
  | looked (scan : Scan graph walk.memory)

/-- What is remembered after a turn. -/
def Turn.memory {graph : Graph} {walk : Walk} : Turn graph walk → Memory
  | .finished memory _ => memory
  | .next walk' _ => walk'.memory

/-- A turn of a walk, with what it did and what came of it. -/
structure Chapter (graph : Graph) where
  walk : Walk
  deed : Deed graph walk
  turn : Turn graph walk

namespace RunContext

open Activity Engine

variable (context : RunContext) (setting : Setting Engine)

/-- A turn does something and comes to an end. -/
inductive Does (walk : Walk) (engine : Engine) :
    Deed context.graph walk → Turn context.graph walk → Engine → Prop where
  | halted {final : Engine}
      (stops : (isStopped context.signal).Ends setting engine true final) :
      Does walk engine .halted (.finished walk.memory (.ended .stopped)) final
  | resumed {final : Engine} {name : String} {rest : List String}
      (goesOn : (isStopped context.signal).Ends setting engine false final)
      (nothing : walk.candidates = []) (stack : walk.memory.interrupted = name :: rest) :
      Does walk engine (.resumed name) (context.resume walk nothing) final
  | concluded {final : Engine}
      (goesOn : (isStopped context.signal).Ends setting engine false final)
      (nothing : walk.candidates = []) (stack : walk.memory.interrupted = []) :
      Does walk engine .concluded (context.resume walk nothing) final
  | lost {final : Engine}
      (goesOn : (isStopped context.signal).Ends setting engine false final)
      (something : walk.candidates ≠ []) (absent : context.graph.find? walk.owner = none) :
      Does walk engine .lost (failed walk.memory (.unknownNode walk.owner)) final
  | looked {owner : Node} {scan : Scan context.graph walk.memory}
      {turn : Turn context.graph walk} {ready middle final : Engine}
      (goesOn : (isStopped context.signal).Ends setting engine false ready)
      (something : walk.candidates ≠ []) (found : context.graph.find? walk.owner = some owner)
      (scans : (context.scan walk.memory owner walk.candidates walk.interruptAt).Ends setting
        ready scan middle)
      (heeds : (context.heed walk something owner scan).Ends setting middle turn final) :
      Does walk engine (.looked scan) turn final

variable {context setting}

/-- **A turn ends as it does if it does one of these things.** -/
theorem turn_ends_iff {walk : Walk} {engine final : Engine} {turn : Turn context.graph walk} :
    (context.turn walk).Ends setting engine turn final ↔
      ∃ deed, context.Does setting walk engine deed turn final := by
  constructor
  · intro ends
    obtain ⟨stopped, ready, looks, ends⟩ := ends_bind.mp ends
    cases stopped with
    | true =>
      cases ends
      exact ⟨_, .halted looks⟩
    | false =>
      by_cases nothing : walk.candidates = []
      · rw [if_neg Bool.false_ne_true, dif_pos nothing] at ends
        cases ends
        cases stack : walk.memory.interrupted with
        | nil => exact ⟨_, .concluded looks nothing stack⟩
        | cons name rest => exact ⟨_, .resumed looks nothing stack⟩
      · rw [if_neg Bool.false_ne_true, dif_neg nothing] at ends
        cases found : context.graph.find? walk.owner with
        | none =>
          rw [look_of_absent _ _ found] at ends
          cases ends
          exact ⟨_, .lost looks nothing found⟩
        | some owner =>
          rw [look_of_found _ _ found] at ends
          obtain ⟨scan, middle, scans, heeds⟩ := ends_bind.mp ends
          exact ⟨_, .looked looks nothing found scans heeds⟩
  · rintro ⟨deed, does⟩
    cases does with
    | halted stops => exact ends_bind.mpr ⟨true, final, stops, .done _ _⟩
    | resumed goesOn nothing | concluded goesOn nothing =>
      refine ends_bind.mpr ⟨false, final, goesOn, ?_⟩
      rw [if_neg Bool.false_ne_true, dif_pos nothing]
      exact .done _ _
    | lost goesOn something absent =>
      refine ends_bind.mpr ⟨false, final, goesOn, ?_⟩
      rw [if_neg Bool.false_ne_true, dif_neg something, look_of_absent _ _ absent]
      exact .done _ _
    | looked goesOn something found scans heeds =>
      refine ends_bind.mpr ⟨false, _, goesOn, ?_⟩
      rw [if_neg Bool.false_ne_true, dif_neg something, look_of_found _ _ found]
      exact ends_bind.mpr ⟨_, _, scans, heeds⟩

variable (context setting)

/-- The story of the turns that lead from a walk to another one. -/
inductive Tells (first : Walk) (start : Engine) :
    List (Chapter context.graph) → Walk → Engine → Prop where
  | start : Tells first start [] first start
  | turn {chapters : List (Chapter context.graph)} {walk next : Walk} {before final : Engine}
      {deed : Deed context.graph walk} {closer : next.Closer context.graph walk}
      (tells : Tells first start chapters walk before)
      (does : context.Does setting walk before deed (.next next closer) final) :
      Tells first start (chapters ++ [⟨walk, deed, .next next closer⟩]) next final

variable {context setting}

/-- Turns that lead to a walk have a story. -/
theorem Passes.tells {first walk : Walk} {start engine : Engine}
    (passes : context.Passes setting first start walk engine) :
    ∃ chapters, context.Tells setting first start chapters walk engine := by
  induction passes with
  | here => exact ⟨[], .start⟩
  | turn _ ends ih =>
    obtain ⟨chapters, tells⟩ := ih
    obtain ⟨deed, does⟩ := turn_ends_iff.mp ends
    exact ⟨_, .turn tells does⟩

/-- **Every run that ends has a story, with a last chapter.** -/
theorem run_tells {memory memory' : Memory} {entry : String} {engine final : Engine}
    {result : RunResult}
    (ends : (context.run memory entry).Ends setting engine (memory', result) final) :
    ∃ chapters last before deed,
      context.Tells setting (Walk.start memory entry) engine chapters last before ∧
      context.Does setting last before deed (.finished memory' result) final := by
  obtain ⟨last, before, passes, ends⟩ := run_ends ends
  obtain ⟨chapters, tells⟩ := passes.tells
  obtain ⟨deed, does⟩ := turn_ends_iff.mp ends
  exact ⟨chapters, last, before, deed, tells, does⟩

end RunContext

end ScreenPilot
