import ScreenPilot.Proofs.Activity.Asking
import ScreenPilot.Proofs.Run.Deeds
import ScreenPilot.Proofs.Run.Scans

/-!
# Runs by what they try and hit

What a run plays can be read by the nodes that it tries (`trials`), those that it hits (`hits`)
and those whose actions it carries out (`actions`). All attempts of a turn miss but the last
one, which may be a hit, and then the turn carries out the action of this node at most
(`TurnTells`). So a run is a journey of turns (`Journey`), and what it remembers is what it
has hit so far, but for the stack of interrupted nodes (`Journey.remembers`).

A turn is a look, a scan and what follows it: the attempts are all in the scan
(`scan_trials`), and the action is all in the visit of a hit (`act_plays`). Everything else
that is called is aside (`Question.IsAside`).
-/

set_option autoImplicit false

namespace ScreenPilot

open Activity Engine

/-! ## Attempts and actions among events -/

/-- The node that was tried, and whether it was a hit. -/
def trial? : RunEvent → Option (Node × Bool)
  | .call (Question.recognize _ _ node) answer =>
    let answer : Option (Reply (Option Recognition)) := answer
    some (node, (answer.bind (Reply.getD · none)).isSome)
  | _ => none

/-- The node whose action was carried out, and whether it succeeded. -/
def action? : RunEvent → Option (Node × Bool)
  | .call (Question.act _ _ node) answer =>
    let answer : Option (Reply Bool) := answer
    some (node, answer.any (Reply.getD · false))
  | _ => none

/-- The nodes that were tried, each with whether it was a hit. -/
def trials (events : List RunEvent) : List (Node × Bool) := events.filterMap trial?

/-- The nodes that were hit. -/
def hitsAmong (trials : List (Node × Bool)) : List Node :=
  trials.filterMap fun trial => if trial.2 then some trial.1 else none

/-- The nodes that were hit. -/
abbrev hits (events : List RunEvent) : List Node := hitsAmong (trials events)

/-- The nodes whose actions were carried out, each with whether it succeeded. -/
def actions (events : List RunEvent) : List (Node × Bool) := events.filterMap action?

/-- A rest, or a wait for a still screen. -/
def Engine.Question.IsAside : Question → Prop
  | .rest _ _ | .awaitStill _ _ _ => True
  | _ => False

/-- Only pauses are called. -/
def AsideCalls (events : List RunEvent) : Prop :=
  ∀ question answer, .call question answer ∈ events → question.IsAside

section Events

variable {events rest : List RunEvent}

@[simp] theorem trials_append : trials (events ++ rest) = trials events ++ trials rest :=
  List.filterMap_append

@[simp] theorem actions_append : actions (events ++ rest) = actions events ++ actions rest :=
  List.filterMap_append

@[simp] theorem hitsAmong_append (first second : List (Node × Bool)) :
    hitsAmong (first ++ second) = hitsAmong first ++ hitsAmong second :=
  List.filterMap_append

@[simp] theorem actions_step (before after : Engine) :
    actions (.step before after :: events) = actions events := rfl

theorem hits_append : hits (events ++ rest) = hits events ++ hits rest := by
  rw [hits, trials_append, hitsAmong_append]

@[simp] theorem trials_step (before after : Engine) :
    trials (.step before after :: events) = trials events := rfl

/-- Where only pauses are called, nothing is tried and no action is carried out. -/
theorem aside_of_calls (aside : AsideCalls events) : trials events = [] ∧ actions events = [] := by
  induction events with
  | nil => exact ⟨rfl, rfl⟩
  | cons event events ih =>
    obtain ⟨noTrial, noAction⟩ := ih fun question answer later =>
      aside question answer (List.mem_cons_of_mem event later)
    cases event with
    | step => exact ⟨noTrial, noAction⟩
    | call question answer =>
      have isAside := aside question answer List.mem_cons_self
      cases question with
      | rest | awaitStill => exact ⟨noTrial, noAction⟩
      | _ => exact isAside.elim

end Events

/-! ## Scans -/

theorem Attempt.Does.trials {context : RunContext} {frame : Frame} {attempt : Attempt}
    {events : List RunEvent} (does : attempt.Does context frame events) :
    trials events = [(attempt.node, attempt.reco.isHit)] ∧ actions events = [] := by
  cases does with
  | intro reply _ _ _ _ records =>
    rw [records]
    cases reply with
    | crashed => exact ⟨rfl, rfl⟩
    | returned found => cases found <;> exact ⟨rfl, rfl⟩

theorem Attempts.trials {context : RunContext} {frame : Frame} {attempts : List Attempt}
    {events : List RunEvent} (tries : Attempts context frame attempts events) :
    trials events = attempts.map (fun attempt => (attempt.node, attempt.reco.isHit)) ∧
      actions events = [] := by
  induction tries with
  | nil => exact ⟨rfl, rfl⟩
  | cons does _ ih => simp [does.trials, ih]

theorem Poll.Does.trials {context : RunContext} {poll : Poll} {events : List RunEvent}
    (does : poll.Does context events) :
    trials events = poll.attempts.map (fun attempt => (attempt.node, attempt.reco.isHit)) ∧
      actions events = [] := by
  cases does with
  | crashed | blind => exact ⟨rfl, rfl⟩
  | seeing _ tries => exact tries.trials

theorem Pause.trials {task : TaskId} {deadline : Nat} {ending : Ending} {events : List RunEvent}
    (pause : Pause task deadline ending events) : trials events = [] ∧ actions events = [] := by
  induction pause with
  | calm | halted | late => exact ⟨rfl, rfl⟩
  | look _ _ _ ih | now _ _ ih | rest _ _ _ ih => exact ih

theorem Polls.trials {context : RunContext} {deadline : Nat} {polls : List Poll} {ending : Ending}
    {events : List RunEvent} (played : Polls context deadline polls ending events) :
    trials events = (polls.flatMap Poll.attempts).map
        (fun attempt => (attempt.node, attempt.reco.isHit)) ∧
      actions events = [] := by
  induction played with
  | last pause => exact pause.trials
  | poll pause _ _ _ does _ ih =>
    obtain ⟨noTrial, noAction⟩ := pause.trials
    obtain ⟨tried, idle⟩ := does.trials
    obtain ⟨later, rest⟩ := ih
    rw [trials_append, trials_append, actions_append, actions_append, noTrial, noAction, later, rest]
    constructor
    · rw [List.flatMap_cons, List.map_append, ← tried]
      rfl
    · rw [List.append_nil, List.nil_append]
      exact idle

/-- In a scan all attempts miss, but the one that it reports as a hit. -/
structure ScanTells {graph : Graph} {memory : Memory} (events : List RunEvent)
    (scan : Scan graph memory) (missed : List Node) : Prop where
  tried : trials events = missed.map (·, false) ++ scan.found.map fun hit => (hit.node, true)
  actions : actions events = []
  eligible : ∀ node ∈ missed, graph.find? node.name = some node ∧ node.enabled = true ∧
    memory.hitsOf node.name < node.maxHit

/-- Hits leave the stack of interrupted nodes alone. -/
theorem Memory.foldl_hit (memory : Memory) (interrupted : List String) (nodes : List Node) :
    nodes.foldl Memory.hit { memory with interrupted } =
      { nodes.foldl Memory.hit memory with interrupted } := by
  induction nodes generalizing memory with
  | nil => rfl
  | cons node nodes ih => exact ih (memory.hit node)

namespace RunContext

variable {context : RunContext} {setting : Setting Engine} {engine final : Engine}
  {events : List RunEvent} {memory : Memory}

theorem scan_trials {owner : Node} {candidates : List String} {interruptAt : Nat}
    {value : Option (Scan context.graph memory)}
    (plays : (context.ported.scan memory owner candidates interruptAt).Plays context.port setting
      engine events value final) :
    ∃ scan, value = some scan ∧ ∃ missed, ScanTells events scan missed := by
  obtain ⟨(started : Nat), rest, _, rfl, begun⟩ := plays_ask rfl plays
  obtain ⟨scan, rfl, polls, ending, played, concludes⟩ := scanRounds_plays begun
  obtain ⟨missed, allMissed, split⟩ := concludes.attempts
  obtain ⟨tried, idle⟩ := played.trials
  refine ⟨scan, rfl, missed.map Attempt.node, ?_, idle, ?_⟩
  · show trials rest = _
    rw [tried, split, List.map_append, List.map_map]
    congr 1
    · refine List.map_congr_left fun attempt member => ?_
      rw [allMissed attempt member]
      rfl
    · refine List.map_congr_left fun attempt member => ?_
      rw [concludes.found_hit attempt member]
  · intro node member
    obtain ⟨attempt, isMissed, rfl⟩ := List.mem_map.mp member
    have among : attempt ∈ polls.flatMap Poll.attempts := by
      rw [split]
      exact List.mem_append_left _ isMissed
    exact (Memory.mem_eligibleAmong (concludes.tried attempt among)).2

/-! ## Actions -/

/-- An activity that only pauses. -/
abbrev Aside {α : Type} (activity : Acting α) (yields : α → Prop) : Prop :=
  activity.Asks Question.IsAside yields

theorem aside_modify (change : Engine → Engine) :
    Aside (Activity.modify change) fun _ => True :=
  .step fun _ => .done trivial

theorem aside_isStopped (signal : StopSignal) : Aside (isStopped signal) fun _ => True :=
  .step fun _ => .done trivial

theorem aside_sleep (signal : StopSignal) (duration : Nat) :
    Aside (sleep signal duration) fun _ => True := by
  refine (aside_isStopped signal).bind fun stopped _ => ?_
  split
  · exact .done trivial
  · split
    · exact .done trivial
    · exact .ask trivial fun _ => (aside_isStopped signal).bind fun _ _ => .done trivial

/-- Other ports say themselves what came of a wait. -/
theorem aside_settle (node : Node) (wait : WaitFreezes) (delay : UInt64) :
    Aside (context.ported.settle node wait delay) fun settled => settled ≠ none := by
  have sees : Aside (context.ported.seeStill node wait) fun seen => seen ≠ none := by
    unfold seeStill
    split
    · rw [Actuator.seen_awaitStill_replaced]
      exact .ask trivial fun _ => .done nofun
    · exact .done nofun
  rw [settle_eq]
  refine sees.bind fun seen isSome => ?_
  cases seen with
  | none => exact absurd rfl isSome
  | some good =>
    have looks : Aside (if good then pure false else isStopped context.signal) fun _ => True := by
      split
      · exact .done trivial
      · exact aside_isStopped _
    refine looks.bind fun cutShort _ => ?_
    split
    · exact .done nofun
    · exact (aside_sleep _ _).bind fun _ _ => .done nofun

theorem aside_recordVisit (detail : NodeDetail) :
    Aside (context.ported.recordVisit detail) fun _ => True :=
  .step fun _ => .step fun _ => .step fun _ => .done trivial

/-- What is reported of an action is whether it succeeded. -/
theorem aside_report (visit : NodeId) (node : Node) (hit : RecoResult) (id : ActionId)
    (success : Bool) : Aside (context.ported.report visit node hit id success) fun acted =>
      acted = .done id success := by
  refine (aside_modify _).bind fun _ _ => (aside_modify _).bind fun _ _ =>
    (aside_settle _ _ _).bind fun settled isSome => ?_
  cases settled with
  | none => exact absurd rfl isSome
  | some goesOn => exact .done rfl

/-- An identity is drawn in a step of its own. -/
theorem plays_draw {α : Type} {kind : IdKind} {next : Id kind → Acting α} {value : Option α}
    (plays : (draw kind >>= next).Plays context.port setting engine events value final) :
    ∃ id found after rest, events = .step found after :: rest ∧
      (next id).Plays context.port setting after rest value final := by
  cases plays with
  | step _ _ rest => exact ⟨_, _, _, _, rfl, rest⟩

/-- What an aside plays. -/
theorem aside_plays {α : Type} {activity : Acting α} {yields : α → Prop}
    (aside : Aside activity yields) {value : Option α}
    (plays : activity.Plays context.port setting engine events value final) :
    trials events = [] ∧ actions events = [] ∧ ∀ result, value = some result → yields result := by
  obtain ⟨called, comes⟩ := aside.plays plays
  obtain ⟨noTrial, noAction⟩ := aside_of_calls called
  exact ⟨noTrial, noAction, comes⟩

/-- **What a visit plays**: pauses only, and then its action has not begun, or the action of its
node with pauses before and after it. -/
theorem act_course {visit : NodeId} {node : Node} {reco : RecoResult} {value : Option Acted}
    (plays : (context.ported.act visit node reco).Plays context.port setting engine events value
      final) :
    (AsideCalls events ∧ ∀ acted, value = some acted → acted = .notStarted) ∨
      ∃ before reply after id,
        events = before ++ .call (Question.act 0 reco node) (some reply) :: after ∧
        AsideCalls before ∧ AsideCalls after ∧
        ∀ acted, value = some acted → acted = .done id (Reply.getD reply false) := by
  rw [act_eq_settle] at plays
  rcases plays_bind plays with ⟨before, after, ready, middle, rfl, settled, nexts⟩ | ⟨rfl, settled⟩
  · obtain ⟨early, isSome⟩ := (aside_settle _ _ _).plays settled
    rcases ready with _ | _ | _
    · exact absurd rfl (isSome none rfl)
    · obtain ⟨rfl, rfl, -⟩ := plays_done nexts
      rw [List.append_nil]
      exact .inl ⟨early, by rintro _ ⟨⟩; rfl⟩
    · obtain ⟨id, _, _, _, rfl, drawn⟩ := plays_draw nexts
      cases drawn with
      | step _ _ announced =>
        obtain ⟨reply, rest, _, rfl, acted⟩ := plays_ask rfl announced
        replace acted : (context.ported.report visit node reco id
          (Reply.getD reply false)).Plays context.port setting _ rest value final := acted
        obtain ⟨late, comes⟩ := (aside_report _ _ _ _ _).plays acted
        refine .inr ⟨_, reply, rest, id, (List.append_assoc before [.step _ _, .step _ _] _).symm,
          ?_, late, comes⟩
        intro question answer member
        simp only [List.mem_append, List.mem_cons, reduceCtorEq, List.not_mem_nil, or_false]
          at member
        exact early question answer member
  · exact .inl ⟨((aside_settle _ _ _).plays settled).1, nofun⟩

/-- A visit carries out the action of its node once at most, and this decides whether it
succeeds. -/
theorem act_plays {visit : NodeId} {node : Node} {reco : RecoResult} {value : Option Acted}
    (plays : (context.ported.act visit node reco).Plays context.port setting engine events value
      final) :
    trials events = [] ∧ (∀ action ∈ actions events, action.1 = node) ∧
      ∀ acted, value = some acted → acted = .notStarted ∧ actions events = [] ∨
        ∃ id success, acted = .done id success ∧ actions events = [(node, success)] := by
  rcases act_course plays with ⟨calls, idle⟩ | ⟨before, reply, after, id, rfl, early, late, comes⟩
  · obtain ⟨noTrial, noAction⟩ := aside_of_calls calls
    rw [noTrial, noAction]
    exact ⟨rfl, List.forall_mem_nil _, fun acted isActed => .inl ⟨idle acted isActed, rfl⟩⟩
  · obtain ⟨noTrial, noAction⟩ := aside_of_calls early
    obtain ⟨noTrial', noAction'⟩ := aside_of_calls late
    have once : actions (.call (Question.act 0 reco node) (some reply) :: after) =
        [(node, Reply.getD reply false)] := congrArg _ noAction'
    rw [trials_append, actions_append, noTrial, noAction, once]
    refine ⟨noTrial', List.forall_mem_singleton.mpr rfl, fun acted isActed => .inr ?_⟩
    exact ⟨id, _, comes acted isActed, rfl⟩

/-! ## Turns -/

/-- What a turn tries and hits, and what its action leads to. -/
structure TurnTells (walk : Walk) (events : List RunEvent) (value : Option (Turn context.graph walk))
    (missed : List Node) (hit : Option Node) : Prop where
  /-- All attempts miss but the last one, which may be a hit. -/
  tried : trials events = missed.map (·, false) ++ hit.toList.map (·, true)
  eligible : ∀ node ∈ missed ++ hit.toList, context.graph.find? node.name = some node ∧
    node.enabled = true ∧ walk.memory.hitsOf node.name < node.maxHit
  /-- The hit is remembered, and otherwise at most the stack of interrupted nodes changes. -/
  memory : ∀ turn, value = some turn → ∃ interrupted,
    turn.memory = { hit.toList.foldl Memory.hit walk.memory with interrupted }
  /-- A node whose action succeeds was hit, and the walk goes on with what follows it. -/
  completes : ∀ node, (node, true) ∈ actions events → hit = some node ∧
    ∀ turn, value = some turn → ∃ walk' closer, turn = .next walk' closer ∧
      walk' = Walk.follow walk'.memory node false

/-- The hits of a turn. -/
theorem TurnTells.hits_eq {walk : Walk} {value : Option (Turn context.graph walk)}
    {missed : List Node} {hit : Option Node} (tells : TurnTells walk events value missed hit) :
    hits events = hit.toList := by
  rw [hits, tells.tried, hitsAmong_append]
  simp [hitsAmong]

/-- A turn that tries nothing. -/
theorem TurnTells.quiet {walk : Walk} {value : Option (Turn context.graph walk)}
    (noTrial : trials events = []) (noAction : actions events = [])
    (same : ∀ turn, value = some turn → ∃ interrupted,
      turn.memory = { walk.memory with interrupted }) :
    TurnTells walk events value [] none where
  tried := noTrial
  eligible := List.forall_mem_nil _
  memory := same
  completes node done := by
    rw [noAction] at done
    cases done

theorem aside_afterMiss (walk : Walk) (owner : Node) (last : Option (String × RecoId)) :
    Aside (context.ported.afterMiss walk owner last) fun turn => turn.memory = walk.memory := by
  refine .step fun _ => (aside_recordVisit _).bind fun _ _ => ?_
  split
  · split
    · exact .done rfl
    · exact .done rfl
  · exact .done rfl

/-- After a hit the node is remembered, and its action decides how the walk goes on. -/
theorem afterHit_plays {walk : Walk} {position : Nat}
    {hit : Memory.Eligible context.graph walk.memory} {reco : RecoResult}
    {value : Option (Turn context.graph walk)}
    (plays : (context.ported.afterHit walk position hit reco).Plays context.port setting engine
      events value final) :
    trials events = [] ∧
      (∀ turn, value = some turn → turn.memory = memoryAfterHit walk position hit.node) ∧
      ∀ node, (node, true) ∈ actions events → node = hit.node ∧
        ∀ turn, value = some turn → ∃ walk' closer, turn = .next walk' closer ∧
          walk' = Walk.follow walk'.memory hit.node false := by
  obtain ⟨visit, found, after, rest, rfl, drawn⟩ := plays_draw plays
  rw [trials_step, actions_step]
  rcases plays_bind drawn with ⟨during, last, acted, _, rfl, acts, nexts⟩ | ⟨rfl, acts⟩
  · obtain ⟨noTrial, onHit, comes⟩ := act_plays acts
    rw [trials_append, actions_append, noTrial]
    rcases comes acted rfl with ⟨rfl, noAction⟩ | ⟨action, success, rfl, once⟩
    · have ends : trials last = [] ∧ actions last = [] ∧ ∀ turn, value = some turn →
          turn.memory = memoryAfterHit walk position hit.node := by
        refine aside_plays ((aside_recordVisit _).bind fun _ _ => ?_) nexts
        exact .done rfl
      obtain ⟨noTrial', noAction', same⟩ := ends
      rw [noTrial', noAction, noAction', List.append_nil]
      exact ⟨rfl, same, fun node done => absurd done List.not_mem_nil⟩
    · have ends : trials last = [] ∧ actions last = [] ∧ ∀ turn, value = some turn →
          turn.memory = memoryAfterHit walk position hit.node ∧
          (success = true → ∃ walk' closer, turn = .next walk' closer ∧
            walk' = Walk.follow walk'.memory hit.node false) := by
        refine aside_plays ((aside_recordVisit _).bind fun _ _ => ?_) nexts
        split
        · exact .done ⟨rfl, fun _ => ⟨_, _, rfl, rfl⟩⟩
        · rename_i failed
          split
          · exact .done ⟨rfl, fun succeeded => absurd succeeded failed⟩
          · split
            · exact .done ⟨rfl, fun succeeded => absurd succeeded failed⟩
            · exact .done ⟨rfl, fun succeeded => absurd succeeded failed⟩
      obtain ⟨noTrial', noAction', same⟩ := ends
      rw [noTrial', once, noAction', List.append_nil, List.append_nil]
      refine ⟨rfl, fun turn is => (same turn is).1, fun node done => ?_⟩
      cases List.mem_singleton.mp done
      exact ⟨rfl, fun turn is => (same turn is).2 rfl⟩
  · obtain ⟨noTrial, onHit, -⟩ := act_plays acts
    refine ⟨noTrial, ?_, fun node done => ⟨onHit (node, true) done, ?_⟩⟩
    · rintro turn ⟨⟩
    · rintro turn ⟨⟩

/-- What a turn does with the outcome of its scan. -/
theorem heed_plays (context : RunContext) {walk : Walk} (something : walk.candidates ≠ []) {owner : Node}
    {scan : Scan context.graph walk.memory} {before : List RunEvent} {missed : List Node}
    (tells : ScanTells before scan missed) {value : Option (Turn context.graph walk)}
    (plays : (context.ported.heed walk something owner scan).Plays context.port setting engine
      events value final) :
    ∃ missed hit, context.TurnTells walk (before ++ events) value missed hit := by
  have noHit : scan.found = [] → trials events = [] → actions events = [] →
      (∀ turn, value = some turn → turn.memory = walk.memory) →
      ∃ missed hit, context.TurnTells walk (before ++ events) value missed hit := by
    intro noHit noTrial noAction same
    have tried := tells.tried
    rw [noHit] at tried
    refine ⟨missed, none, ?_, ?_, fun turn is => ⟨_, same turn is⟩, fun node done => ?_⟩
    · rw [trials_append, noTrial, List.append_nil]
      exact tried
    · rw [Option.toList_none, List.append_nil]
      exact tells.eligible
    · rw [actions_append, tells.actions, noAction] at done
      cases done
  have quiet : ∀ {turn : Turn context.graph walk}, scan.found = [] →
      (Activity.done turn : Acting _).Plays context.port setting engine events value final →
      turn.memory = walk.memory →
      ∃ missed hit, context.TurnTells walk (before ++ events) value missed hit := by
    intro turn isNone ends same
    obtain ⟨rfl, rfl, -⟩ := plays_done ends
    exact noHit isNone rfl rfl (by rintro _ ⟨⟩; exact same)
  cases scan with
  | hit position hit reco =>
    obtain ⟨noTrial, same, completes⟩ := afterHit_plays plays
    refine ⟨missed, some hit.node, ?_, ?_, fun turn is => ?_, fun node done => ?_⟩
    · rw [trials_append, noTrial, List.append_nil]
      exact tells.tried
    · refine List.forall_mem_append.mpr ⟨tells.eligible, ?_⟩
      exact List.forall_mem_singleton.mpr ⟨hit.found, hit.enabled, hit.below⟩
    · rw [same turn is]
      unfold memoryAfterHit
      dsimp only
      split
      · exact ⟨_, rfl⟩
      · exact ⟨_, rfl⟩
    · rw [actions_append, tells.actions] at done
      obtain ⟨rfl, follows⟩ := completes node done
      exact ⟨rfl, follows⟩
  | missed last =>
    obtain ⟨noTrial, noAction, comes⟩ := aside_plays (aside_afterMiss walk owner last) plays
    exact noHit rfl noTrial noAction comes
  | exhausted | stopped | unknown | crashed | unfinished => exact quiet rfl plays rfl

/-- **In a turn all attempts miss but the last one, which may be a hit.** -/
theorem turn_plays {walk : Walk} {value : Option (Turn context.graph walk)}
    (plays : (context.ported.turn walk).Plays context.port setting engine events value final) :
    ∃ missed hit, TurnTells walk events value missed hit := by
  obtain ⟨found, asked, rest, rfl, -, looked⟩ := plays_look plays
  have quiet : ∀ {turn : Turn context.graph walk},
      (Activity.done turn : Acting _).Plays context.port setting found rest value final →
      (∃ interrupted, turn.memory = { walk.memory with interrupted }) →
      ∃ missed hit, TurnTells walk (.step found found :: rest) value missed hit := by
    intro turn ends same
    obtain ⟨rfl, rfl, -⟩ := plays_done ends
    exact ⟨[], none, .quiet rfl rfl (by rintro _ ⟨⟩; exact same)⟩
  cases asked with
  | true => exact quiet looked ⟨_, rfl⟩
  | false =>
    rw [if_neg Bool.false_ne_true] at looked
    by_cases nothing : walk.candidates = []
    · rw [dif_pos nothing] at looked
      refine quiet looked ?_
      unfold resume
      split
      · exact ⟨_, rfl⟩
      · dsimp only
        split
        · exact ⟨_, rfl⟩
        · exact ⟨_, rfl⟩
    · rw [dif_neg nothing] at looked
      cases owned : context.graph.find? walk.owner with
      | none =>
        rw [context.ported.look_of_absent nothing owned] at looked
        exact quiet looked ⟨_, rfl⟩
      | some owner =>
        rw [context.ported.look_of_found nothing owned] at looked
        obtain ⟨scan, before, after, _, rfl, ⟨missed, tells⟩, heeds⟩ :=
          plays_then scan_trials looked
        obtain ⟨missed, hit, tells⟩ := heed_plays context nothing tells heeds
        exact ⟨missed, hit, tells.tried, tells.eligible, tells.memory, tells.completes⟩

/-- What was remembered after earlier hits is remembered after those of the turn too. -/
theorem TurnTells.remembers {walk : Walk} {value : Option (Turn context.graph walk)}
    {missed past : List Node} {hit : Option Node} {first : Memory} {interrupted : List String}
    (tells : TurnTells walk events value missed hit)
    (before : walk.memory = { past.foldl Memory.hit first with interrupted })
    {turn : Turn context.graph walk} (comes : value = some turn) : ∃ interrupted,
      turn.memory = { (past ++ hits events).foldl Memory.hit first with interrupted } := by
  obtain ⟨interrupted, same⟩ := tells.memory turn comes
  refine ⟨interrupted, ?_⟩
  rw [same, before, tells.hits_eq, List.foldl_append, Memory.foldl_hit]

/-! ## Runs -/

/-- With these events, turns lead from one walk to another. -/
inductive Journey (context : RunContext) (setting : Setting Engine) (first : Walk)
    (start : Engine) : List RunEvent → Walk → Engine → Prop where
  | here : Journey context setting first start [] first start
  | turn {past events : List RunEvent} {walk next : Walk} {engine final : Engine}
      {closer : next.Closer context.graph walk}
      (journey : Journey context setting first start past walk engine)
      (plays : (context.ported.turn walk).Plays context.port setting engine events
        (some (.next next closer)) final) :
      Journey context setting first start (past ++ events) next final

/-- A turn may come first. -/
theorem Journey.head {first second walk : Walk} {start middle : Engine} {past : List RunEvent}
    {closer : second.Closer context.graph first}
    (plays : (context.ported.turn first).Plays context.port setting start events
      (some (.next second closer)) middle)
    (journey : context.Journey setting second middle past walk engine) :
    context.Journey setting first start (events ++ past) walk engine := by
  induction journey with
  | here =>
    rw [List.append_nil]
    exact .turn .here plays
  | turn _ plays ih =>
    rw [← List.append_assoc]
    exact .turn ih plays

/-- **A walk goes on by turns until the last one.** -/
theorem walkOn_plays {first : Walk} {start final : Engine} {events : List RunEvent}
    {value : Option (Memory × RunResult)}
    (plays : (context.ported.walkOn first).Plays context.port setting start events value final) :
    ∃ past rest walk engine, events = past ++ rest ∧
      context.Journey setting first start past walk engine ∧
      ∃ turn : Option (Turn context.graph walk),
        (context.ported.turn walk).Plays context.port setting engine rest turn final ∧
        (turn = none ∧ value = none ∨
          ∃ memory result, turn = some (.finished memory result) ∧ value = some (memory, result)) := by
  rw [walkOn_eq] at plays
  rcases plays_bind plays with ⟨events, rest, turn, middle, rfl, turned, nexts⟩ | ⟨rfl, turned⟩
  · cases turn with
    | finished memory result =>
      obtain ⟨rfl, rfl, rfl⟩ := plays_done nexts
      rw [List.append_nil]
      exact ⟨[], events, first, start, rfl, .here, _, turned, .inr ⟨memory, result, rfl, rfl⟩⟩
    | next second closer =>
      obtain ⟨past, last, walk, engine, rfl, journey, ends⟩ := walkOn_plays nexts
      exact ⟨events ++ past, last, walk, engine, (List.append_assoc ..).symm,
        journey.head turned, ends⟩
  · exact ⟨[], events, first, start, rfl, .here, none, turned, .inl ⟨rfl, rfl⟩⟩
termination_by first.left context.graph
decreasing_by assumption

/-- The memory of a walk is that of the first one after the hits so far, but for the stack of
interrupted nodes. -/
theorem Journey.remembers {first walk : Walk} {start : Engine} {past : List RunEvent}
    (journey : context.Journey setting first start past walk engine) : ∃ interrupted,
      walk.memory = { (hits past).foldl Memory.hit first.memory with interrupted } := by
  induction journey with
  | here => exact ⟨_, rfl⟩
  | turn _ plays ih =>
    obtain ⟨interrupted, before⟩ := ih
    obtain ⟨missed, hit, tells⟩ := turn_plays plays
    rw [hits_append]
    exact tells.remembers before rfl

end RunContext

end ScreenPilot
