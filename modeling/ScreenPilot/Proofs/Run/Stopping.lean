import ScreenPilot.Proofs.Run.Accord

/-!
# Runs that are asked to stop

A run looks whether it is asked to stop before every turn, before every round of
a scan, and when it has rested. It does not look once more before it gives up. So
a run that is asked to stop in time is stopped, and one that is asked while its
last round or its last action is under way may be overtaken by the failure of
that round or action.

`turn_stopped_or_overtaken` says this of the last turn, and
`run_stopped_or_overtaken` of a run: the failure that overtakes the request is
that of a round, or of an action, at whose beginning there was no request yet.
A run that misses its only node shows that it happens (`exists_overtaken`).
-/

set_option autoImplicit false

namespace ScreenPilot

open Activity

namespace Engine

/-- Others do not withdraw a request to stop the task. -/
def heeding (task : TaskId) : Setting Engine where
  others before after :=
    before.stopped.contains task = true → after.stopped.contains task = true
  own _ _ := True

/-- No step of a run asks a task to stop, and none withdraws it. -/
theorem stopped_of_runStep {task : TaskId} {before after : Engine}
    (step : RunStep task before after) : after.stopped = before.stopped := by
  cases step with
  | attempt step => cases step <;> rfl
  | drawNode => rfl
  | recordNode => rfl
  | recordLatest => rfl
  | pushVisit => rfl

/-- A request to stop stays. -/
theorem ensures_asked {α : Type} {task : TaskId} {activity : Acting α} {engine : Engine}
    (steps : activity.Steps (RunStep task)) (asked : engine.stopped.contains task = true) :
    Ensures (heeding task) activity engine fun _ final => final.stopped.contains task = true := by
  refine steps.ensures (fun engine => engine.stopped.contains task = true)
    (fun _ _ others => others) ?_ asked
  intro before after step _ asked
  rw [stopped_of_runStep step]
  exact asked

variable {setting : Setting Engine} {engine : Engine}

/-- A rest ends with a look whether a stop is requested. -/
theorem sleep_looks (signal : StopSignal) (duration : Nat) :
    Ensures setting (sleep signal duration) engine fun goOn final =>
      goOn = !final.stopped.contains signal.task := by
  refine ensures_bind.mpr (ensures_reads.mpr fun found _ _ => ?_)
  cases asked : found.stopped.contains signal.task with
  | true => exact ensures_pure.mpr (by rw [asked]; rfl)
  | false =>
    rw [if_neg Bool.false_ne_true]
    split
    · exact ensures_pure.mpr (by rw [asked]; rfl)
    · refine ensures_bind.mpr (ensures_ask.mpr fun _ => ensures_done.mpr ?_)
      refine ensures_bind.mpr (ensures_reads.mpr fun later _ _ => ensures_pure.mpr ?_)
      cases later.stopped.contains signal.task <;> rfl

end Engine

namespace RunContext

open Engine

variable {context : RunContext} {setting : Setting Engine} {engine : Engine} {walk : Walk}

/-- Only without a request to stop does a run go on after it has rested. -/
theorem settle_looks (node : Node) (wait : WaitFreezes) (delay : UInt64) :
    Ensures setting (context.settle node wait delay) engine fun ready final =>
      ready = some true → final.stopped.contains context.task = false := by
  refine .after fun waited _ => ?_
  split
  · exact ensures_pure.mpr nofun
  · refine .after fun isCutShort _ => ?_
    split
    · exact ensures_pure.mpr nofun
    · refine ensures_bind.mpr ((sleep_looks _ _).imp fun goOn final looks => ?_)
      refine ensures_pure.mpr fun goesOn => ?_
      cases goesOn
      exact (Bool.not_eq_true' _).mp looks.symm

/-- The action of a node and the rests after it, once the rests before it are over. -/
def carryOut (context : RunContext) (visit : NodeId) (node : Node) (hit : RecoResult) :
    Acting Acted := do
  let id ← draw .action
  emit (context.event node .action .starting visit hit.id id)
  let success := (← context.actuator.act hit node).getD false
  modifyCache (Cache.putAction ⟨id, node.name, success⟩)
  emit (context.event node .action (.ofSuccess success) visit hit.id id)
  match ← context.settle node node.postWait node.postDelay with
  | none => pure .unfinished
  | some _ => pure (.done id success)

theorem act_eq (visit : NodeId) (node : Node) (hit : RecoResult) :
    context.act visit node hit = (do
      match ← context.settle node node.preWait node.preDelay with
      | none => pure .unfinished
      | some false => pure .notStarted
      | some true => context.carryOut visit node hit) := rfl

/-! ## The last round and the last action -/

/-- A round over the candidates came to this, and at its beginning the run was not
asked to stop. -/
def LastRound (setting : Setting Engine) (memory : Memory) (candidates : List String)
    (round : Option (Round context.graph memory)) (final : Engine) : Prop :=
  ∃ looked last, looked.stopped.contains context.task = false ∧
    (context.tryAll memory candidates last).Ends setting looked round final

/-- The action of a node came to this, and at its beginning the run was not asked to
stop. -/
def LastAction (context : RunContext) (setting : Setting Engine) (visit : NodeId) (node : Node)
    (hit : RecoResult) (acted : Acted) (final : Engine) : Prop :=
  ∃ looked, looked.stopped.contains context.task = false ∧
    (context.carryOut visit node hit).Ends setting looked acted final

/-- A scan that comes to no candidate ends with a round of that kind. -/
def ScanLooks (setting : Setting Engine) {memory : Memory} (candidates : List String) :
    Scan context.graph memory → Engine → Prop
  | .missed last, final => ∃ tried,
    context.LastRound setting memory candidates (some (.missed tried last)) final
  | .unknown name, final =>
    context.LastRound setting memory candidates (some (.unknown name)) final
  | .crashed, final => context.LastRound setting memory candidates none final
  | .hit .., _ | .exhausted, _ | .stopped, _ | .unfinished, _ => True

theorem giveUp_looks {memory : Memory} {candidates : List String} {tried : Bool}
    {last : Option (String × RecoId)} {final : Engine}
    (round : context.LastRound setting memory candidates (some (.missed tried last)) final)
    (interruptAt : Nat) :
    context.ScanLooks setting candidates (giveUp interruptAt last : Scan context.graph memory)
      final := by
  unfold giveUp
  split
  · trivial
  · exact ⟨tried, round⟩

/-- A run that gives up because the time is up does so at once. -/
theorem betweenRounds_ends {owner : Node} {deadline round : Nat} :
    Ensures setting (context.betweenRounds owner deadline round) engine fun goOn final =>
      goOn = none → final = engine := by
  refine ensures_ask.mpr fun time => ?_
  refine ensures_bind.mpr (ensures_done.mpr ?_)
  split
  · exact ensures_pure.mpr fun _ => rfl
  · refine ensures_ask.mpr fun _ => ?_
    exact ensures_bind.mpr (ensures_done.mpr (.after fun _ _ => ensures_pure.mpr nofun))

/-- **Before every round, a scan looks whether a stop is requested.** The induction is
on the rounds that are left. -/
theorem scanRounds_looks (memory : Memory) (owner : Node) (candidates : List String)
    (interruptAt deadline patience : Nat) (last : Option (String × RecoId)) :
    Ensures setting
      (context.scanRounds memory owner candidates interruptAt deadline patience last) engine
      (context.ScanLooks setting candidates) := by
  induction patience generalizing last engine with
  | zero => exact ensures_pure.mpr trivial
  | succ patience ih =>
    refine ensures_bind.mpr (ensures_reads.mpr fun looked _ _ => ?_)
    cases asked : looked.stopped.contains context.signal.task with
    | true => exact ensures_pure.mpr trivial
    | false =>
      refine ensures_bind.mpr (ensures_ask.mpr fun start => ensures_done.mpr ?_)
      refine ensures_bind.mpr fun round middle tries => ?_
      have here : context.LastRound setting memory candidates round middle :=
        ⟨looked, last, asked, tries⟩
      rcases round with _ | _ | _ | ⟨_ | _, last'⟩
      · exact ensures_pure.mpr here
      · exact ensures_pure.mpr trivial
      · exact ensures_pure.mpr here
      · exact ensures_pure.mpr (giveUp_looks here interruptAt)
      · refine ensures_bind.mpr (betweenRounds_ends.imp fun goOn final same => ?_)
        rcases goOn with _ | _ | _
        · rw [same rfl]
          exact ensures_pure.mpr (giveUp_looks here interruptAt)
        · exact ensures_pure.mpr trivial
        · exact ih _

/-- Before it acts on a hit, a run looks whether a stop is requested. -/
theorem act_looks (visit : NodeId) (node : Node) (hit : RecoResult) :
    Ensures setting (context.act visit node hit) engine fun acted final =>
      ∀ action success, acted = .done action success →
        context.LastAction setting visit node hit acted final := by
  rw [act_eq]
  refine ensures_bind.mpr ((settle_looks _ _ _).imp fun ready looked looks => ?_)
  split
  · exact ensures_pure.mpr nofun
  · exact ensures_pure.mpr nofun
  · exact fun acted final ends _ _ _ => ⟨looked, looks rfl, ends⟩

/-! ## The last turn -/

/-- The last turn of a walk came to an end with a round or an action at whose
beginning the run was not asked to stop. -/
inductive Overtaken (context : RunContext) (setting : Setting Engine) (walk : Walk) :
    RunResult → Engine → Prop where
  | missed {owner : Node} {tried : Bool} {last : Option (String × RecoId)} {middle final : Engine}
      (round : context.LastRound setting walk.memory walk.candidates
        (some (.missed tried last)) middle)
      (found : context.graph.find? walk.owner = some owner) {memory : Memory}
      {failure : RunFailure}
      (ends : (context.afterMiss walk owner last).Ends setting middle
        (failed memory failure) final) :
      Overtaken context setting walk (.ended (.failed failure)) final
  | unknown {name : String} {final : Engine}
      (round : context.LastRound setting walk.memory walk.candidates (some (.unknown name)) final) :
      Overtaken context setting walk (.ended (.failed (.unknownNode name))) final
  | crashed {final : Engine}
      (round : context.LastRound setting walk.memory walk.candidates none final) :
      Overtaken context setting walk .crashed final
  | failed {node : Node} {visit : NodeId} {hit : RecoResult} {action : ActionId}
      {middle final : Engine} {failure : RunFailure}
      (acts : context.LastAction setting visit node hit (.done action false) middle)
      (records : (context.recordVisit ⟨visit, node.name, hit.id, action, false⟩).Ends setting
        middle () final)
      (fails : walk.recovering = true ∧ failure = .errorLoop ∨
        node.onError = [] ∧ failure = .unhandled .actionFailed) :
      Overtaken context setting walk (.ended (.failed failure)) final

/-- A run that was overtaken was not stopped. -/
theorem Overtaken.not_stopped {result : RunResult} {final : Engine}
    (overtaken : context.Overtaken setting walk result final) : result ≠ .ended .stopped := by
  cases overtaken <;> exact nofun

/-- A turn that is the last one is stopped, or comes to the end of what it is overtaken
by, or goes on for longer than it is followed. -/
def LastTurn (context : RunContext) (setting : Setting Engine) (walk : Walk) (result : RunResult)
    (final : Engine) : Prop :=
  result = .ended .stopped ∨ result = .unfinished ∨ context.Overtaken setting walk result final

/-- What a turn comes to, if it is asked to stop. -/
abbrev TurnStops (setting : Setting Engine) (turn : Turn context.graph walk) (final : Engine) :
    Prop :=
  final.stopped.contains context.task = true →
    turn.Holds (fun _ => True) fun _ result => context.LastTurn setting walk result final

theorem afterMiss_stops {owner : Node} (found : context.graph.find? walk.owner = some owner)
    {tried : Bool} {last : Option (String × RecoId)}
    (round : context.LastRound setting walk.memory walk.candidates (some (.missed tried last))
      engine) :
    Ensures setting (context.afterMiss walk owner last) engine (context.TurnStops setting) := by
  -- the ways to end are those of the activity itself
  have ends : Ensures setting (context.afterMiss walk owner last) engine fun turn _ =>
      turn.Holds (fun _ => True) fun memory result =>
        ∃ failure, result = .ended (.failed failure) := by
    refine .after fun visit _ => .after fun _ _ => ?_
    split
    · split
      · exact ensures_pure.mpr ⟨_, rfl⟩
      · exact ensures_pure.mpr trivial
    · exact ensures_pure.mpr ⟨_, rfl⟩
  intro turn final ended _
  have shape := ends turn final ended
  cases turn with
  | next => trivial
  | finished memory result =>
    obtain ⟨failure, rfl⟩ := shape
    exact .inr (.inr (.missed round found ended))

theorem afterHit_stops (position : Nat) (hit : Memory.Eligible context.graph walk.memory)
    (reco : RecoResult) :
    Ensures setting (context.afterHit walk position hit reco) engine
      (context.TurnStops setting) := by
  refine .after fun visit _ => ?_
  refine ensures_bind.mpr ((act_looks _ _ _).imp fun acted middle looks => ?_)
  split
  · exact ensures_pure.mpr fun _ => .inr (.inl rfl)
  · exact .after fun _ _ => ensures_pure.mpr fun _ => .inl rfl
  · rename_i action success
    refine ensures_bind.mpr fun _ final records => ?_
    split
    · exact ensures_pure.mpr fun _ => trivial
    · rename_i unsuccessful
      rw [Bool.not_eq_true] at unsuccessful
      subst unsuccessful
      have acts := looks action false rfl
      split
      · rename_i recovering
        refine ensures_pure.mpr fun _ => .inr (.inr ?_)
        exact .failed acts records (.inl ⟨recovering, rfl⟩)
      · split
        · rename_i none
          refine ensures_pure.mpr fun _ => .inr (.inr ?_)
          exact .failed acts records (.inr ⟨List.isEmpty_iff.mp none, rfl⟩)
        · exact ensures_pure.mpr fun _ => trivial

theorem look_stops (looked : engine.stopped.contains context.task = false)
    (something : walk.candidates ≠ []) :
    Ensures setting (context.look walk something) engine (context.TurnStops setting) := by
  unfold look
  split
  · refine ensures_pure.mpr fun asked => ?_
    rw [looked] at asked
    cases asked
  · rename_i owner found
    refine ensures_bind.mpr (.after fun deadline _ => ?_)
    refine (scanRounds_looks _ _ _ _ _ _ _).imp fun scan middle looks => ?_
    split
    · exact afterHit_stops _ _ _
    · obtain ⟨tried, round⟩ := looks
      exact afterMiss_stops found round
    · exact ensures_pure.mpr fun _ => trivial
    · exact ensures_pure.mpr fun _ => .inl rfl
    · exact ensures_pure.mpr fun _ => .inr (.inr (.unknown looks))
    · exact ensures_pure.mpr fun _ => .inr (.inr (.crashed looks))
    · exact ensures_pure.mpr fun _ => .inr (.inl rfl)

/-- **If a stop is requested when the last turn is over, the turn was stopped or
overtaken.** -/
theorem turn_stopped_or_overtaken :
    Ensures setting (context.turn walk) engine (context.TurnStops setting) := by
  refine ensures_bind.mpr (ensures_reads.mpr fun found _ _ => ?_)
  cases looked : found.stopped.contains context.signal.task with
  | true => exact ensures_pure.mpr fun _ => .inl rfl
  | false =>
    rw [if_neg Bool.false_ne_true]
    split
    · refine ensures_pure.mpr fun asked => ?_
      rw [RunContext.task, looked] at asked
      cases asked
    · exact look_stops looked _

/-- A turn that begins when a stop is requested is stopped. -/
theorem turn_stopped (asked : engine.stopped.contains context.task = true) :
    Ensures (heeding context.task) (context.turn walk) engine fun turn _ =>
      turn.Holds (fun _ => False) fun _ result => result = .ended .stopped := by
  refine ensures_bind.mpr (ensures_reads.mpr fun found others _ => ?_)
  have asked : found.stopped.contains context.signal.task = true := others asked
  rw [asked, if_pos rfl]
  exact ensures_pure.mpr rfl

/-! ## Runs -/

/-- **If a stop is requested when a run is over, the run was stopped; or it was not
asked to stop when it began, and its last turn was overtaken.** -/
theorem run_stopped_or_overtaken {memory memory' : Memory} {entry : String}
    {engine final : Engine} {result : RunResult}
    (ends : (context.run memory entry).Ends (heeding context.task) engine (memory', result) final)
    (finished : result ≠ .unfinished) (asked : final.stopped.contains context.task = true) :
    result = .ended .stopped ∨
      engine.stopped.contains context.task = false ∧ ∃ last before,
        context.Passes (heeding context.task) (Walk.start memory entry) engine last before ∧
        context.Overtaken (heeding context.task) last result final := by
  obtain ⟨last, before, passes, turned⟩ := run_ends ends
  rcases turn_stopped_or_overtaken _ _ turned asked with stopped | unfinished | overtaken
  · exact .inl stopped
  · exact absurd unfinished finished
  · cases early : engine.stopped.contains context.task with
    | false => exact .inr ⟨rfl, last, before, passes, overtaken⟩
    | true =>
      -- a request from the beginning is seen by the turn that was the last one
      have stays := passes.keeps (fun _ engine => engine.stopped.contains context.task = true)
        (fun walk engine asked => (ensures_asked (steps_turn context walk) asked).imp
          fun turn final asked => by
            cases turn with
            | finished memory result => trivial
            | next walk' closer => exact asked)
        early
      exact .inl (turn_stopped stays _ _ turned)

/-! ### A run that is overtaken -/

/-- A run may fail for its only round, while the stop is requested that is asked for
during that round. -/
theorem exists_overtaken : ∃ final, (hasty.run .empty "A").Ends (heeding ⟨1⟩) posted
      (.empty, .ended (.failed (.unhandled .noMatch))) final ∧
    final.stopped.contains ⟨1⟩ = true := by
  have raised : (posted.raiseStop ⟨1⟩).stopped.contains ⟨1⟩ = true :=
    Std.ExtTreeSet.contains_insert_self
  have idle : ∀ engine, (heeding ⟨1⟩).others engine engine := fun _ => id
  have meanwhile : (heeding ⟨1⟩).others posted (posted.raiseStop ⟨1⟩) := fun _ => raised
  obtain ⟨middle, final, same, missed, ends⟩ :=
    hasty_run idle (fun _ _ _ => trivial) meanwhile (by decide)
  rw [← same] at raised
  have steps := steps_afterMiss hasty (Walk.start .empty "A") fleeting none
  exact ⟨final, ends, ensures_asked steps raised _ _ missed⟩

end RunContext

end ScreenPilot
