import ScreenPilot.Proofs.Run.Caps
import ScreenPilot.Proofs.Run.Guises
import ScreenPilot.Proofs.Run.Prompt
import ScreenPilot.Run.Interpreter

/-!
# Runs of one node, by what they do

A run of one node is read as the events it plays with its ports (`Activity.Plays`). First the node
has to be there and no stop requested (`OnNode`); then it is recognized (`Recognizes`) or acted on
(`Acts`), which puts one visit on record (`Visits`).

That a run does not go by the edges of the node, nor by its limits, is a matter of what it plays
for a graph that is written otherwise. Two graphs with the same sketch of the node
(`Node.sketch`) have the same runs, as long as nobody looks into the nodes that the ports are asked
about (`RunContext.single_of_sketch`).
-/

set_option autoImplicit false

namespace ScreenPilot

open Activity Engine

/-- The node without whatever says when it may be looked for and where it leads. -/
def Node.sketch (node : Node) : Node :=
  { node with
    enabled := true, maxHit := 0, isSub := false, next := [], interrupt := [], onError := []
    checkpoint := ∅, jumpback := [], timeout := 0, rateLimit := 0 }

theorem Node.guise_sketch : Node.Guise Node.sketch :=
  ⟨fun _ => rfl, fun _ => rfl, fun _ => rfl, fun _ => rfl, fun _ => rfl, fun _ => rfl, fun _ => rfl,
    fun _ => rfl⟩

/-! ## What is played -/

/-- Steps that look for candidates or act leave the visits alone. -/
theorem Engine.AttemptStep.quiet {before after : Engine} (step : AttemptStep before after) :
    IsQuiet (.step before after) := by
  cases step <;> exact ⟨rfl, rfl, rfl, rfl⟩

/-- What is played in such steps records no visit. -/
theorem quiet_plays {α : Type} {activity : Acting α} (steps : activity.Steps AttemptStep)
    {handlers : Handlers outside Engine} {setting : Setting Engine} {engine final : Engine}
    {events : List RunEvent} {value : Option α}
    (plays : activity.Plays handlers setting engine events value final) :
    ∀ event ∈ events, IsQuiet event := by
  intro event member
  cases event with
  | step before after => exact (steps.plays plays before after member).quiet
  | call => trivial

/-- Questions that are pauses. -/
theorem AsideCalls.calls {events : List RunEvent} (aside : AsideCalls events) :
    ∀ question ∈ calls events, question.IsAside := by
  induction events with
  | nil => exact List.forall_mem_nil _
  | cons event events ih =>
    have later := ih fun question answer member =>
      aside question answer (List.mem_cons_of_mem event member)
    cases event with
    | step => exact later
    | call question answer =>
      exact List.forall_mem_cons.mpr ⟨aside question answer List.mem_cons_self, later⟩

/-! ## What a single run does -/

section Visits

variable (context : RunContext) (node : Node)

/-- One visit of a node is put on record, under an identity that was drawn for it. -/
structure Visits (events : List RunEvent) (detail : NodeDetail) : Prop where
  name : detail.name = node.name
  drawn : ∃ engine : Engine, detail.id = (engine.ids.draw .node).1 ∧
    .step engine { engine with ids := (engine.ids.draw .node).2 } ∈ events
  records : Records context.task events (some detail)

/-- What is done to recognize a node once. -/
inductive Recognizes : List RunEvent → Option RunResult → Prop where
  | crashed {events : List RunEvent} (records : Records context.task events none)
      (called : calls events = [.capture context.controller])
      (crashes : .call (Question.capture context.controller) (some Reply.crashed) ∈ events) :
      Recognizes events (some .crashed)
  /-- There is no frame. -/
  | blind {events : List RunEvent} {detail : NodeDetail} (visits : Visits context node events detail)
      (called : calls events = [.capture context.controller]) (missed : detail.completed = false) :
      Recognizes events (some (.ended (.failed (.unhandled .noMatch))))
  /-- The node is tried once. -/
  | seeing {events : List RunEvent} {detail : NodeDetail}
      (visits : Visits context node events detail) (frame : Frame)
      (called : calls events = [.capture context.controller, .recognize 0 frame node])
      (tried : trials events = [(node, detail.completed)]) :
      Recognizes events (some (RunContext.singleOutcome detail.completed .noMatch))

/-- At most the action of the node is called, with pauses around it. -/
def ActsOnce (box : Rect) (questions : List Question) : Prop :=
  ∃ before acted after, questions = before ++ acted ++ after ∧
    (∀ question ∈ before ++ after, question.IsAside) ∧
    (acted = [] ∨ ∃ hit : RecoResult, hit.box = some box ∧ acted = [.act 0 hit node])

/-- What is done to act on a node once. -/
inductive Acts (box : Rect) : List RunEvent → Option RunResult → Prop where
  /-- A wait for a still screen goes on for longer than it is followed. -/
  | waiting {events : List RunEvent} (records : Records context.task events none)
      (once : ActsOnce node box (calls events)) (front : List RunEvent) (actuator : Handle)
      (wait : WaitFreezes) (waited : Node)
      (isOpen : events = front ++ [.call (Question.awaitStill actuator wait waited) none]) :
      Acts box events none
  /-- A stop is requested before the action. -/
  | notStarted {events : List RunEvent} {detail : NodeDetail}
      (visits : Visits context node events detail) (once : ActsOnce node box (calls events))
      (idle : actions events = []) (incomplete : detail.completed = false) :
      Acts box events (some (.ended .stopped))
  | acted {events : List RunEvent} {detail : NodeDetail}
      (visits : Visits context node events detail) (once : ActsOnce node box (calls events))
      (acted : actions events = [(node, detail.completed)]) :
      Acts box events (some (RunContext.singleOutcome detail.completed .actionFailed))

/-- What is done for one node, if it is there and no stop is requested. -/
inductive OnNode (setting : Setting Engine) (entry : String) (engine : Engine)
    (does : Node → List RunEvent → Option RunResult → Prop) :
    List RunEvent → Option RunResult → Prop where
  | unknown (absent : context.graph.find? entry = none) :
      OnNode setting entry engine does [] (some (.ended (.failed (.unknownNode entry))))
  | stopped {node : Node} {found : Engine} (isNode : context.graph.find? entry = some node)
      (others : setting.others engine found)
      (asked : found.stopped.contains context.task = true) :
      OnNode setting entry engine does [.step found found] (some (.ended .stopped))
  | visited {node : Node} {found : Engine} {events : List RunEvent} {value : Option RunResult}
      (isNode : context.graph.find? entry = some node) (others : setting.others engine found)
      (goesOn : found.stopped.contains context.task = false) (visited : does node events value) :
      OnNode setting entry engine does (.step found found :: events) value

end Visits

/-- Quiet events may come first. -/
theorem Records.prepend {task : TaskId} {before events : List RunEvent}
    {visit : Option NodeDetail} (records : Records task events visit)
    (quiet : ∀ event ∈ before, IsQuiet event) : Records task (before ++ events) visit := by
  induction before with
  | nil => exact records
  | cons event before ih =>
    obtain ⟨first, later⟩ := List.forall_mem_cons.mp quiet
    exact (ih later).cons first

/-- The screen may be captured first. -/
theorem Records.captured {task : TaskId} {events : List RunEvent} {visit : Option NodeDetail}
    (records : Records task events visit) {controller : Handle} {frame : Option Frame}
    {counted : Engine} : Records task
      (.call (Question.capture controller) (some (Reply.returned frame)) ::
        .step counted { counted with stats := counted.stats.countCapture frame.isSome } :: events)
      visit :=
  .cons (.cons records (AttemptStep.count _ _).quiet) trivial

namespace Attempt.Does

variable {context : RunContext} {frame : Frame} {attempt : Attempt} {events rest : List RunEvent}

theorem calls (does : attempt.Does context frame events) :
    calls events = [.recognize 0 frame attempt.node] := by
  cases does
  rfl

/-- An attempt records no visit. -/
theorem records (does : attempt.Does context frame events) {visit : Option NodeDetail}
    (later : Records context.task rest visit) : Records context.task (events ++ rest) visit := by
  cases does
  refine .cons (.cons (.cons (.cons (.cons later ?_) ?_) ?_) ?_) ?_
  · exact (AttemptStep.announce _ _).quiet
  · exact (AttemptStep.recordReco _ _).quiet
  · trivial
  · exact (AttemptStep.announce _ _).quiet
  · exact (AttemptStep.drawReco _).quiet

end Attempt.Does

namespace Visits

variable {context : RunContext} {node : Node} {events : List RunEvent} {detail : NodeDetail}

/-- A visit may begin when its identity is drawn. -/
theorem of_drawn {drawn : Engine} (records : Records context.task events (some detail))
    (name : detail.name = node.name) (id : detail.id = (drawn.ids.draw .node).1) :
    Visits context node
      (.step drawn { drawn with ids := (drawn.ids.draw .node).2 } :: events) detail where
  name := name
  drawn := ⟨drawn, id, List.mem_cons_self⟩
  records := records.cons ⟨rfl, rfl, rfl, rfl⟩

/-- Another step may come first. -/
theorem cons (visits : Visits context node events detail) {event : RunEvent}
    (quiet : IsQuiet event) : Visits context node (event :: events) detail where
  name := visits.name
  drawn := visits.drawn.imp fun _ drawn => ⟨drawn.1, List.mem_cons_of_mem _ drawn.2⟩
  records := visits.records.cons quiet

end Visits

namespace OnNode

variable {context : RunContext} {setting : Setting Engine} {entry : String} {engine : Engine}
  {does does' : Node → List RunEvent → Option RunResult → Prop} {events : List RunEvent}
  {value : Option RunResult}

theorem imp (run : OnNode context setting entry engine does events value)
    (more : ∀ node events value, does node events value → does' node events value) :
    OnNode context setting entry engine does' events value := by
  cases run with
  | unknown absent => exact .unknown absent
  | stopped isNode others asked => exact .stopped isNode others asked
  | visited isNode others goesOn visited =>
    exact .visited isNode others goesOn (more _ _ _ visited)

end OnNode

namespace RunContext

variable {context : RunContext} {setting : Setting Engine} {engine final : Engine}
  {events : List RunEvent} {node : Node}

theorem onNode_plays {entry : String} {run : Node → Acting RunResult} {value : Option RunResult}
    (plays : (context.ported.onNode entry run).Plays context.port setting engine events value
      final) :
    OnNode context setting entry engine (fun node events value => ∃ found,
      (run node).Plays context.port setting found events value final) events value := by
  unfold onNode at plays
  split at plays
  · rename_i absent
    obtain ⟨rfl, rfl, -⟩ := plays_done plays
    exact .unknown absent
  · rename_i node isNode
    obtain ⟨found, rest, rfl, others, plays⟩ := plays_looks plays
    split at plays
    · rename_i asked
      obtain ⟨rfl, rfl, -⟩ := plays_done plays
      exact .stopped isNode others asked
    · rename_i goesOn
      exact .visited isNode others (Bool.not_eq_true _ ▸ goesOn) ⟨found, plays⟩

/-! ## Recognition -/

/-- What is done with a node that is to be recognized. -/
def lookOn (context : RunContext) (node : Node) : Acting RunResult := do
  let visit ← draw .node
  match ← capture context.controller with
  | .crashed => pure .crashed
  | .returned frame =>
    let (reco, found) ← context.attemptOn node frame
    context.recordVisit ⟨visit, node.name, reco, .invalid, found⟩
    pure (singleOutcome found .noMatch)

/-- A visit is recorded at the end, and nothing is called for it. -/
theorem plays_record {α : Type} {detail : NodeDetail} {result : α} {value : Option α}
    (plays : (context.ported.recordVisit detail >>= fun _ => pure result).Plays context.port setting
      engine events value final) :
    value = some result ∧ Records context.task events (some detail) ∧ calls events = [] ∧
      trials events = [] ∧ actions events = [] := by
  cases plays with
  | step _ _ filed => cases filed with
    | step _ _ latest => cases latest with
      | step _ _ listed =>
        obtain ⟨rfl, rfl, -⟩ := plays_done listed
        exact ⟨rfl, .one (List.forall_mem_nil _) (List.forall_mem_nil _), rfl, rfl, rfl⟩

/-- **What a node to be recognized comes to.** -/
theorem lookOn_plays {value : Option RunResult}
    (plays : (context.ported.lookOn node).Plays context.port setting engine events value final) :
    Recognizes context node events value := by
  cases plays with
  | step _ _ drawn =>
    obtain ⟨reply, _, _, rfl, captured⟩ := plays_ask rfl drawn
    match reply with
    | .crashed =>
      obtain ⟨rfl, rfl, -⟩ := plays_done captured
      refine .crashed (.cons ?_ ⟨rfl, rfl, rfl, rfl⟩) rfl ?_
      · exact .none (List.forall_mem_singleton.mpr trivial)
      · exact List.mem_cons_of_mem _ List.mem_cons_self
    | .returned none =>
      cases captured with
      | step _ _ counted =>
        obtain ⟨rfl, records, noCall, -⟩ := plays_record counted
        refine .blind (Visits.of_drawn records.captured rfl rfl) ?_ rfl
        exact congrArg _ noCall
    | .returned (some frame) =>
      cases captured with
      | step _ _ counted =>
        replace counted : ((context.ported.recognize frame node >>= fun result =>
            pure (result.id, result.isHit)) >>= fun attempt =>
              context.ported.recordVisit ⟨_, node.name, attempt.1, .invalid, attempt.2⟩ >>= fun _ =>
                pure (singleOutcome attempt.2 .noMatch)).Plays context.port setting _ _ value
          final := counted
        rw [bind_assoc] at counted
        obtain ⟨reco, tried, rest, _, rfl, does, recorded⟩ := plays_recognize counted
        obtain ⟨rfl, records, noCall, noTrial, -⟩ := plays_record recorded
        refine .seeing (Visits.of_drawn (does.records records).captured rfl rfl) frame ?_ ?_
        · show _ :: calls (tried ++ rest) = _
          rw [calls_append, noCall, does.calls]
          rfl
        · show trials (tried ++ rest) = _
          rw [trials_append, noTrial, does.trials.1]
          rfl

/-! ## Actions -/

/-- What a visit calls. -/
theorem act_calls {visit : NodeId} {box : Rect} {reco : RecoResult} (isBox : reco.box = some box)
    {value : Option Acted}
    (plays : (context.ported.act visit node reco).Plays context.port setting engine events value
      final) : ActsOnce node box (calls events) := by
  rcases act_course plays with ⟨idle, -⟩ | ⟨before, reply, after, id, rfl, early, late, -⟩
  · refine ⟨calls events, [], [], by simp, ?_, .inl rfl⟩
    rw [List.append_nil]
    exact idle.calls
  · refine ⟨calls before, [.act 0 reco node], calls after, ?_, ?_, .inr ⟨reco, isBox, rfl⟩⟩
    · rw [calls_append, List.append_assoc]
      rfl
    · exact List.forall_mem_append.mpr ⟨early.calls, late.calls⟩

/-- **What a node to act on comes to.** -/
theorem actOn_plays {box : Rect} {value : Option RunResult}
    (plays : (context.ported.actOn box node).Plays context.port setting engine events value final) :
    Acts context node box events value := by
  cases plays with
  | step _ _ drawn => cases drawn with
    | step _ _ cached => cases cached with
      | step _ _ plays =>
        replace plays : (context.ported.act _ node _ >>= _).Plays context.port setting _ _ value
          final := plays
        rcases plays_bind plays with ⟨before, after, acted, _, rfl, acts, nexts⟩ | ⟨rfl, acts⟩
        · have once := act_calls rfl acts
          have quiet := quiet_plays (steps_act _ _ _ _) acts
          obtain ⟨-, -, tells⟩ := act_plays acts
          rcases tells acted rfl with ⟨rfl, idle⟩ | ⟨id, success, rfl, acted⟩
          · obtain ⟨rfl, records, noCall, -, noAction⟩ := plays_record nexts
            refine .notStarted (.cons (.cons (Visits.of_drawn (records.prepend quiet) rfl rfl)
              (AttemptStep.recordReco _ _).quiet) (AttemptStep.drawReco _).quiet) ?_ ?_ rfl
            · show ActsOnce node box (calls (before ++ after))
              rw [calls_append, noCall, List.append_nil]
              exact once
            · show actions (before ++ after) = []
              rw [actions_append, idle, noAction]
              rfl
          · obtain ⟨rfl, records, noCall, -, noAction⟩ := plays_record nexts
            refine .acted (.cons (.cons (Visits.of_drawn (records.prepend quiet) rfl rfl)
              (AttemptStep.recordReco _ _).quiet) (AttemptStep.drawReco _).quiet) ?_ ?_
            · show ActsOnce node box (calls (before ++ after))
              rw [calls_append, noCall, List.append_nil]
              exact once
            · show actions (before ++ after) = _
              rw [actions_append, acted, noAction]
              rfl
        · have quiet := quiet_plays (steps_act _ _ _ _) acts
          obtain ⟨front, question, _, rfl, ends⟩ := acts.left_open
          cases waits : question.isWait with
          | false => exact absurd ends (port_answers waits)
          | true =>
            cases question with
            | awaitStill actuator wait waited =>
              have once : ActsOnce node box (calls (front ++ [_])) := act_calls rfl acts
              refine .waiting (.none ?_) once (_ :: _ :: _ :: front) actuator wait waited rfl
              refine List.forall_mem_cons.mpr ⟨(AttemptStep.drawReco _).quiet, ?_⟩
              refine List.forall_mem_cons.mpr ⟨(AttemptStep.recordReco _ _).quiet, ?_⟩
              exact List.forall_mem_cons.mpr ⟨⟨rfl, rfl, rfl, rfl⟩, quiet⟩
            | _ => cases waits

/-! ## Runs of one node -/

/-- A graph that has the sketch of one node. -/
theorem exists_sketch (graph : Graph) (entry : String) :
    ∃ plain : Graph, plain.find? entry = (graph.find? entry).map Node.sketch := by
  cases found : graph.find? entry with
  | none => exact ⟨.empty, rfl⟩
  | some node =>
    refine ⟨Graph.empty.insert node.sketch, ?_⟩
    rw [Graph.find?_insert, if_pos]
    · rfl
    · exact graph.named entry node found

/-- **Runs of one node go by its sketch.** -/
theorem single_of_sketch (context : RunContext) {graph : Graph} {entry : String}
    (same : (graph.find? entry).map Node.sketch = (context.graph.find? entry).map Node.sketch) :
    ({ context with graph }.recognizeOnce entry).reword (changing Node.sketch) =
        (context.recognizeOnce entry).reword (changing Node.sketch) ∧
      ∀ box, ({ context with graph }.actOnce entry box).reword (changing Node.sketch) =
        (context.actOnce entry box).reword (changing Node.sketch) := by
  obtain ⟨plain, isSketch⟩ := exists_sketch context.graph entry
  have isSketch' := isSketch.trans same.symm
  have guise := Node.guise_sketch
  refine ⟨?_, fun box => ?_⟩
  · exact (guise.recognizeOnce isSketch').symm.trans (guise.recognizeOnce isSketch)
  · exact (guise.actOnce isSketch' box).symm.trans (guise.actOnce isSketch box)

/-- **What it is to recognize a node once.** -/
theorem recognizeOnce_plays {entry : String} {value : Option RunResult}
    (plays : (context.ported.recognizeOnce entry).Plays context.port setting engine events value
      final) : OnNode context setting entry engine (Recognizes context) events value :=
  (onNode_plays plays).imp fun _ _ _ ⟨_, looks⟩ => lookOn_plays looks

/-- **What it is to act on a node once.** -/
theorem actOnce_plays {entry : String} {box : Rect} {value : Option RunResult}
    (plays : (context.ported.actOnce entry box).Plays context.port setting engine events value
      final) :
    OnNode context setting entry engine (fun node => Acts context node box) events value :=
  (onNode_plays plays).imp fun _ _ _ ⟨_, acts⟩ => actOn_plays acts

/-- Recognizing a node is never left open. -/
theorem recognizeOnce_ends {entry : String} {result : RunResult}
    (ends : (context.recognizeOnce entry).Ends setting engine result final) :
    ∃ events, (context.ported.recognizeOnce entry).Plays context.port setting engine events
      (some result) final := by
  obtain ⟨events, value, plays, rfl | ⟨rfl, -⟩⟩ := (context.handled.recognizeOnce entry).plays ends
  · exact ⟨events, plays⟩
  · cases recognizeOnce_plays plays with
    | visited _ _ _ looks => cases looks

end RunContext

/-- A run on a node that is asked to stop from the beginning only looks. -/
theorem OnNode.halts {context : RunContext} {setting : Setting Engine} {entry : String}
    {engine : Engine} {does : Node → List RunEvent → Option RunResult → Prop}
    {events : List RunEvent} {value : Option RunResult}
    (run : OnNode context setting entry engine does events value)
    (raised : ∀ found, setting.others engine found → found.stopped.contains context.task = true)
    (known : context.graph.find? entry ≠ none) :
    ∃ found, events = [.step found found] ∧ value = some (.ended .stopped) := by
  cases run with
  | unknown absent => exact absurd absent known
  | @stopped _ found _ _ _ => exact ⟨found, rfl, rfl⟩
  | visited _ others goesOn _ => exact nomatch goesOn.symm.trans (raised _ others)

namespace RunContext

/-- **Runs of one node stand alone.** An interpreter remembers after them what it remembered
before, and they go by the sketch of the node: whether it is enabled, how often it may be hit and
where it leads makes no difference but in what other ports are asked about. Without the node
nothing happens, and when a stop is requested the run only looks.

Otherwise one visit is recorded and the run succeeds exactly if it was completed. To recognize a
node is to capture the screen once and to try the node once if there is a frame, and the visit is
completed exactly if it was a hit; nothing else is called, and without a record it ends only if the
capture crashes. To act on a node is to call its action once at most, on the given box and with
nothing but pauses around it, and the visit is completed exactly if it was called and succeeded.
The run goes on without a record only as long as it waits for a still screen.

This is said of what the runs play with their ports, and every run that ends has played so. -/
theorem singles_isolated (context : RunContext) (setting : Setting Engine) (engine : Engine)
    (entry : String) :
    (∀ memory memory' result final,
      ((context.serve memory (.recognition entry)).Ends setting engine (memory', result) final ↔
        memory' = memory ∧ (context.recognizeOnce entry).Ends setting engine result final) ∧
      ∀ box, (context.serve memory (.action entry box)).Ends setting engine (memory', result)
          final ↔
        memory' = memory ∧ (context.actOnce entry box).Ends setting engine result final) ∧
    (∀ graph : Graph,
      (graph.find? entry).map Node.sketch = (context.graph.find? entry).map Node.sketch →
      ({ context with graph }.recognizeOnce entry).reword (changing Node.sketch) =
          (context.recognizeOnce entry).reword (changing Node.sketch) ∧
        ∀ box, ({ context with graph }.actOnce entry box).reword (changing Node.sketch) =
          (context.actOnce entry box).reword (changing Node.sketch)) ∧
    (∀ result final, (context.recognizeOnce entry).Ends setting engine result final →
      ∃ events, (context.ported.recognizeOnce entry).Plays context.port setting engine events
        (some result) final) ∧
    (∀ events value final,
      (context.ported.recognizeOnce entry).Plays context.port setting engine events value final →
        OnNode context setting entry engine (Recognizes context) events value) ∧
    (∀ box result final, (context.actOnce entry box).Ends setting engine result final →
      ∃ events value, (context.ported.actOnce entry box).Plays context.port setting engine events
          value final ∧
        (value = some result ∨ value = none ∧ result = .unfinished)) ∧
    (∀ box events value final,
      (context.ported.actOnce entry box).Plays context.port setting engine events value final →
        OnNode context setting entry engine (fun node => Acts context node box) events value) ∧
    ((∀ found, setting.others engine found → found.stopped.contains context.task = true) →
      context.graph.find? entry ≠ none → ∀ events value final,
        ((context.ported.recognizeOnce entry).Plays context.port setting engine events value
            final ∨
          ∃ box, (context.ported.actOnce entry box).Plays context.port setting engine events value
            final) →
        ∃ found, events = [.step found found] ∧ value = some (.ended .stopped)) := by
  have kept : ∀ (memory memory' : Memory) (result : RunResult) (final : Engine)
      (run : Acting RunResult),
      (run >>= fun result => pure (memory, result)).Ends setting engine (memory', result) final ↔
        memory' = memory ∧ run.Ends setting engine result final := by
    intro memory memory' result final run
    rw [ends_bind]
    constructor
    · rintro ⟨_, _, ends, last⟩
      cases last
      exact ⟨rfl, ends⟩
    · rintro ⟨rfl, ends⟩
      exact ⟨result, final, ends, .done _ _⟩
  refine ⟨fun memory memory' result final => ⟨kept _ _ _ _ _, fun box => kept _ _ _ _ _⟩,
    fun graph => context.single_of_sketch, fun _ _ => recognizeOnce_ends,
    fun _ _ _ => recognizeOnce_plays, fun box _ _ ends => (context.handled.actOnce entry box).plays
    ends, fun _ _ _ _ => actOnce_plays, ?_⟩
  intro raised known events value final plays
  rcases plays with looks | ⟨box, acts⟩
  · exact (recognizeOnce_plays looks).halts raised known
  · exact (actOnce_plays acts).halts raised known

/-! ### A node that is not to be looked for -/

/-- A disabled node that may not be hit and follows itself. -/
def dormant : Node := { fleeting with enabled := false, maxHit := 0, next := ["A"] }

/-- A run for this node. -/
def unsought : RunContext := { hasty with graph := Graph.empty.insert dormant }

theorem unsought_find? : unsought.graph.find? "A" = some dormant := by
  rw [unsought, Graph.find?_insert]
  rfl

theorem standstill_others {engine found : Engine}
    (others : standstill.setting.others engine found) : found = engine := by
  obtain ⟨_, _, same⟩ := others
  exact (Prod.mk.inj same).1.symm

/-- What a run on the node comes to when nobody else does anything. -/
theorem unsought_visits {does : Node → List RunEvent → Option RunResult → Prop}
    {events : List RunEvent} {value : Option RunResult}
    (run : OnNode unsought standstill.setting "A" posted does events value) :
    ∃ rest, events = .step posted posted :: rest ∧ does dormant rest value := by
  cases run with
  | unknown absent => exact nomatch absent.symm.trans unsought_find?
  | stopped _ others asked =>
    cases standstill_others others
    exact nomatch asked
  | visited isNode others _ visited =>
    cases standstill_others others
    cases isNode.symm.trans unsought_find?
    exact ⟨_, rfl, visited⟩

theorem completed_of_succeeded {success : Bool} {fault : Fault}
    (succeeded : singleOutcome success fault = .ended .succeeded) : success = true := by
  cases success with
  | true => rfl
  | false => exact nomatch succeeded

/-- The node is recognized and acted on nonetheless, and the visits are completed. Once a stop is
requested it is not even looked for. -/
theorem singles_isolated_unsought :
    (unsought.recognizeOnce "A").reword (changing Node.sketch) =
        (hasty.recognizeOnce "A").reword (changing Node.sketch) ∧
      (∃ events detail frame, Visits unsought dormant events detail ∧ detail.completed = true ∧
        calls events = [.capture 0, .recognize 0 frame dormant]) ∧
      (∃ events detail, Visits unsought dormant events detail ∧ detail.completed = true ∧
        actions events = [(dormant, true)]) ∧
      ∀ events value final, (unsought.ported.recognizeOnce "A").Plays unsought.port
          standstill.setting (posted.raiseStop ⟨1⟩) events value final →
        value = some (.ended .stopped) := by
  obtain ⟨-, sketched, seen, looks, done, acts, -⟩ :=
    singles_isolated unsought standstill.setting posted "A"
  refine ⟨?_, ?_, ?_, ?_⟩
  · have same : (hasty.graph.find? "A").map Node.sketch =
        (unsought.graph.find? "A").map Node.sketch := by
      rw [unsought_find?, hasty, Graph.find?_insert]
      rfl
    exact (sketched hasty.graph same).1.symm
  · have succeeded : (standstill.carry (unsought.recognizeOnce "A") (posted, ())).1 =
      .ended .succeeded := rfl
    have ends := standstill.ends_carry (unsought.recognizeOnce "A") (posted, ())
    rw [succeeded] at ends
    obtain ⟨events, plays⟩ := seen _ _ ends
    obtain ⟨rest, -, recognized⟩ := unsought_visits (looks _ _ _ plays)
    generalize isValue : some (RunResult.ended .succeeded) = value at recognized
    cases recognized with
    | crashed => cases isValue
    | blind => cases isValue
    | @seeing detail visits frame called _ =>
      have completed := completed_of_succeeded (Option.some.inj isValue).symm
      exact ⟨rest, detail, frame, visits, completed, called⟩
  · have succeeded : (standstill.carry (unsought.actOnce "A" default) (posted, ())).1 =
      .ended .succeeded := rfl
    have ends := standstill.ends_carry (unsought.actOnce "A" default) (posted, ())
    rw [succeeded] at ends
    obtain ⟨events, value, plays, rfl | ⟨-, isOpen⟩⟩ := done _ _ _ ends
    · obtain ⟨rest, -, acted⟩ := unsought_visits (acts _ _ _ _ plays)
      generalize isValue : some (RunResult.ended .succeeded) = value at acted
      cases acted with
      | waiting => cases isValue
      | notStarted => cases isValue
      | @acted detail visits _ acted =>
        have completed := completed_of_succeeded (Option.some.inj isValue).symm
        exact ⟨rest, detail, visits, completed, completed ▸ acted⟩
    · cases isOpen
  · intro events value final plays
    obtain ⟨-, -, -, -, -, -, halts⟩ :=
      singles_isolated unsought standstill.setting (posted.raiseStop ⟨1⟩) "A"
    have raised : ∀ found, standstill.setting.others (posted.raiseStop ⟨1⟩) found →
        found.stopped.contains ⟨1⟩ = true := fun found others =>
      standstill_others others ▸ rfl
    have known : unsought.graph.find? "A" ≠ none := unsought_find? ▸ Option.some_ne_none dormant
    obtain ⟨-, -, stops⟩ := halts raised known _ _ _ (.inl plays)
    exact stops

end RunContext

end ScreenPilot
