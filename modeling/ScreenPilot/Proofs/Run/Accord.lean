import ScreenPilot.Proofs.Graph.Closed
import ScreenPilot.Proofs.Run.Candidates
import ScreenPilot.Proofs.Run.Record
import ScreenPilot.Proofs.Run.Turns
import Mathlib.Data.List.Chain

/-!
# Visits and outcomes

The visits that a run has on record tell how it ended (`run_accords`). A run
recovers from a failed visit by one that completes, so two failed visits in a
row are its last ones.

What carries the proof is that a walk is recovering exactly if its last visit
failed (`Walk.Follows`). For this, a walk that is recovering or has made no
visit may not run out of candidates. It has some, and these are not interrupts
alone; so a scan of them hits or misses.
-/

set_option autoImplicit false

namespace ScreenPilot

/-- Of two visits in a row, one was completed. -/
def Recovers (visits : List NodeDetail) : Prop :=
  visits.IsChain fun visit next => visit.completed = true ∨ next.completed = true

/-- What a walk is about to do agrees with the visits made so far. -/
structure Walk.Follows (walk : Walk) (visits : List NodeDetail) : Prop where
  recovers : Recovers visits
  /-- The walk is recovering exactly if the last visit failed. -/
  recovering : walk.recovering = true ↔
    ∃ visit ∈ visits.getLast?, visit.completed = false
  /-- A walk that is not to end yet looks for a node that must appear. -/
  seeks : walk.recovering = true ∨ visits = [] → walk.candidates ≠ [] ∧ walk.interruptAt ≠ 0

/-- The visits of a run of a graph agree with its result. The last list of
candidates was that of `owner`. -/
structure Accord (graph : Graph) (owner : String) (visits : List NodeDetail)
    (result : RunResult) : Prop where
  /-- Two failed visits in a row are the last ones, and the run then failed for
  them or was stopped. -/
  twice : ∀ before first second after, visits = before ++ first :: second :: after →
    first.completed = false → second.completed = false →
      after = [] ∧ (result = .ended (.failed .errorLoop) ∨ result = .ended .stopped)
  errorLoop : result = .ended (.failed .errorLoop) → ∃ before first second,
    visits = before ++ [first, second] ∧ first.completed = false ∧ second.completed = false
  /-- A run that succeeded completed its last visit, and a visit after each that
  failed. -/
  succeeded : result = .ended .succeeded →
    (∃ before last, visits = before ++ [last] ∧ last.completed = true) ∧
    ∀ before failed after, visits = before ++ failed :: after → failed.completed = false →
      ∃ next rest, after = next :: rest ∧ next.completed = true
  /-- A run without a node for its error ended with the first visit that failed.
  The action that failed is on record, or there was none. -/
  unhandled : ∀ fault, result = .ended (.failed (.unhandled fault)) → ∃ before last,
    visits = before ++ [last] ∧ last.completed = false ∧
    (∀ previous ∈ before.getLast?, previous.completed = true) ∧
    (fault = .actionFailed ↔ last.action.isValid = true) ∧
    (fault = .noMatch ↔ last.action.isValid = false) ∧
    (fault = .actionFailed → ∃ node, graph.find? last.name = some node ∧ node.onError = []) ∧
    (fault = .noMatch → ∃ node, graph.find? owner = some node ∧ node.onError = [])

/-! ## Visits in a row -/

namespace Recovers

variable {visits : List NodeDetail} {visit : NodeDetail}

theorem nil : Recovers [] := List.IsChain.nil

/-- Visits to which another one is added still recover, if the last one or the
new one was completed. -/
theorem append (recovers : Recovers visits)
    (either : (∀ last ∈ visits.getLast?, last.completed = true) ∨ visit.completed = true) :
    Recovers (visits ++ [visit]) := by
  refine List.isChain_append.mpr ⟨recovers, .singleton visit, ?_⟩
  rintro last isLast _ ⟨⟩
  rcases either with completed | completed
  · exact .inl (completed last isLast)
  · exact .inr completed

/-- In visits that recover, none fails right after one that failed. -/
theorem not_twice (recovers : Recovers visits) {before after : List NodeDetail}
    {first second : NodeDetail} (split : visits = before ++ first :: second :: after)
    (failed : first.completed = false) : second.completed = true := by
  rw [split, Recovers, List.isChain_append_cons_cons] at recovers
  rcases recovers.2.1 with completed | completed
  · rw [failed] at completed
    cases completed
  · exact completed

/-- One visit more after visits that recover can fail right after another one
only as the last. -/
theorem twice_append (recovers : Recovers visits) {before after : List NodeDetail}
    {first second : NodeDetail} (split : visits ++ [visit] = before ++ first :: second :: after)
    (failed : first.completed = false) (again : second.completed = false) : after = [] := by
  rcases List.eq_nil_or_concat after with rfl | ⟨inner, last, rfl⟩
  · rfl
  · have shorter : visits = before ++ first :: second :: inner := by
      have same : visits ++ [visit] = (before ++ first :: second :: inner) ++ [last] := by
        rw [split, List.concat_eq_append, List.append_assoc]
        rfl
      exact (List.append_inj' same rfl).1
    rw [recovers.not_twice shorter failed] at again
    cases again

end Recovers

/-! ## Ends -/

namespace Accord

variable {graph : Graph} {owner : String} {visits : List NodeDetail} {visit : NodeDetail}

/-- Without a new visit, a run may end if it does not fail for want of a visit
that completes, and succeeds only if the last one did. -/
theorem of_recovers {result : RunResult} (recovers : Recovers visits)
    (failed : ∀ failure, result = .ended (.failed failure) → ∃ name, failure = .unknownNode name)
    (succeeded : result = .ended .succeeded → ∃ last ∈ visits.getLast?, last.completed = true) :
    Accord graph owner visits result where
  twice := by
    intro before first second after split failed again
    rw [recovers.not_twice split failed] at again
    cases again
  errorLoop := by
    intro same
    obtain ⟨name, other⟩ := failed _ same
    cases other
  succeeded := by
    intro same
    obtain ⟨last, isLast, completed⟩ := succeeded same
    obtain ⟨before, split⟩ := List.getLast?_eq_some_iff.mp isLast
    refine ⟨⟨before, last, split, completed⟩, ?_⟩
    rintro earlier failing after other failed
    cases after with
    | nil =>
      rw [other, List.getLast?_concat] at isLast
      cases isLast
      rw [failed] at completed
      cases completed
    | cons next rest => exact ⟨next, rest, rfl, recovers.not_twice other failed⟩
  unhandled := by
    intro fault same
    obtain ⟨name, other⟩ := failed _ same
    cases other

/-- A run that has not come to an end of its own may be at any visit. -/
theorem suspended {result : RunResult} (recovers : Recovers visits)
    (open' : result = .ended .stopped ∨ result = .crashed ∨ result = .unfinished) :
    Accord graph owner visits result := by
  refine .of_recovers recovers ?_ ?_
  · rintro failure rfl
    rcases open' with same | same | same <;> cases same
  · rintro rfl
    rcases open' with same | same | same <;> cases same

/-- A run may come to a name that no node has. -/
theorem lost {name : String} (recovers : Recovers visits) :
    Accord graph owner visits (.ended (.failed (.unknownNode name))) := by
  refine .of_recovers recovers ?_ ?_
  · rintro failure same
    cases same
    exact ⟨name, rfl⟩
  · intro same
    cases same

/-- A run may be stopped after any visit. -/
theorem stopped (recovers : Recovers visits) :
    Accord graph owner (visits ++ [visit]) (.ended .stopped) where
  twice := fun _ _ _ _ split failed again =>
    ⟨recovers.twice_append split failed again, .inr rfl⟩
  errorLoop := nofun
  succeeded := nofun
  unhandled := nofun

/-- A run fails by a visit that failed after one that failed. -/
theorem of_twice (recovers : Recovers visits)
    (recovering : ∃ last ∈ visits.getLast?, last.completed = false)
    (failed : visit.completed = false) :
    Accord graph owner (visits ++ [visit]) (.ended (.failed .errorLoop)) where
  twice := fun _ _ _ _ split failed again =>
    ⟨recovers.twice_append split failed again, .inl rfl⟩
  errorLoop := by
    intro _
    obtain ⟨last, isLast, failedBefore⟩ := recovering
    obtain ⟨before, rfl⟩ := List.getLast?_eq_some_iff.mp isLast
    refine ⟨before, last, visit, ?_, failedBefore, failed⟩
    rw [List.append_assoc]
    rfl
  succeeded := nofun
  unhandled := nofun

/-- A run fails by the first visit that failed, if no node handles its error. -/
theorem of_unhandled {fault : Fault} (recovers : Recovers visits)
    (calm : ∀ last ∈ visits.getLast?, last.completed = true) (failed : visit.completed = false)
    (acted : fault = .actionFailed ↔ visit.action.isValid = true)
    (ofAction : fault = .actionFailed →
      ∃ node, graph.find? visit.name = some node ∧ node.onError = [])
    (ofMatch : fault = .noMatch → ∃ node, graph.find? owner = some node ∧ node.onError = []) :
    Accord graph owner (visits ++ [visit]) (.ended (.failed (.unhandled fault))) where
  twice := by
    intro before first second after split failed again
    rw [(recovers.append (.inl calm)).not_twice split failed] at again
    cases again
  errorLoop := nofun
  succeeded := nofun
  unhandled := by
    rintro _ ⟨⟩
    refine ⟨visits, visit, rfl, failed, calm, acted, ?_, ofAction, ofMatch⟩
    rw [← Bool.not_eq_true, ← acted]
    cases fault <;> decide

end Accord

/-! ## One turn -/

namespace Walk

variable {walk : Walk} {visits : List NodeDetail} {visit : NodeDetail}

theorem follows_start (memory : Memory) (entry : String) : (start memory entry).Follows [] where
  recovers := .nil
  recovering := by simp [start]
  seeks := fun _ => ⟨List.cons_ne_nil _ _, Nat.one_ne_zero⟩

/-- A walk that is not recovering has completed its last visit. -/
theorem Follows.calm (follows : walk.Follows visits) (calm : walk.recovering = false) :
    ∀ last ∈ visits.getLast?, last.completed = true := by
  intro last isLast
  rw [← Bool.not_eq_false]
  intro failed
  have recovering := follows.recovering.mpr ⟨last, isLast, failed⟩
  rw [calm] at recovering
  cases recovering

/-- A walk that may run out of candidates has made a visit, and completed the
last one. -/
theorem Follows.settled (follows : walk.Follows visits)
    (idle : walk.candidates = [] ∨ walk.interruptAt = 0) :
    walk.recovering = false ∧ ∃ last ∈ visits.getLast?, last.completed = true := by
  have seeksNot : ¬ (walk.recovering = true ∨ visits = []) := by
    intro either
    obtain ⟨some, atFirst⟩ := follows.seeks either
    exact idle.elim some atFirst
  rw [not_or, Bool.not_eq_true] at seeksNot
  obtain ⟨calm, visited⟩ := seeksNot
  have isLast := List.getLast?_eq_some_getLast visited
  exact ⟨calm, _, isLast, follows.calm calm _ isLast⟩

/-- A walk that has completed its last visit may look for anything. -/
theorem follows_of_settled (recovers : Recovers visits) (calm : walk.recovering = false)
    (settled : ∃ last ∈ visits.getLast?, last.completed = true) : walk.Follows visits where
  recovers := recovers
  recovering := by
    obtain ⟨last, isLast, completed⟩ := settled
    rw [calm]
    apply iff_of_false Bool.false_ne_true
    rintro ⟨other, isLast', failed⟩
    rw [Option.mem_unique isLast' isLast, completed] at failed
    cases failed
  seeks := by
    obtain ⟨last, isLast, -⟩ := settled
    rintro (recovering | rfl)
    · rw [calm] at recovering
      cases recovering
    · cases isLast

/-- A walk goes on after a visit that completed. -/
theorem Follows.completed (follows : walk.Follows visits) {next : Walk}
    (calm : next.recovering = false) (completed : visit.completed = true) :
    next.Follows (visits ++ [visit]) :=
  follows_of_settled (follows.recovers.append (.inr completed)) calm
    ⟨visit, List.getLast?_concat, completed⟩

/-- A walk that was not recovering handles the error of a visit that failed. -/
theorem Follows.failed (follows : walk.Follows visits) (calm : walk.recovering = false)
    {memory : Memory} {node : Node} {owner : String} (handled : ¬ node.onError.isEmpty = true)
    (failed : visit.completed = false) :
    ({ handle memory node with owner } : Walk).Follows (visits ++ [visit]) where
  recovers := follows.recovers.append (.inl (follows.calm calm))
  recovering := iff_of_true rfl ⟨visit, List.getLast?_concat, failed⟩
  seeks := by
    have some : node.onError ≠ [] := fun none => handled (List.isEmpty_iff.mpr none)
    intro _
    exact ⟨some, fun none => some (List.length_eq_zero_iff.mp none)⟩

end Walk

namespace RunContext

open Engine Activity

variable {context : RunContext} {walk : Walk} {earlier : List NodeId} {visits : List NodeDetail}
  {engine : Engine}

/-- What a turn goes on with, or the end it comes to, agrees with the visits on
record after it. -/
def TurnAccords (earlier : List NodeId) (turn : Turn context.graph walk) (final : Engine) : Prop :=
  ∃ visits, Recorded context.task earlier visits final ∧
    turn.Holds (Walk.Follows · visits) fun _ result =>
      Accord context.graph walk.owner visits result

theorem resume_accords (follows : walk.Follows visits) (nothing : walk.candidates = [])
    (recorded : Recorded context.task earlier visits engine) :
    TurnAccords earlier (context.resume walk nothing) engine := by
  obtain ⟨calm, settled⟩ := follows.settled (.inl nothing)
  refine ⟨visits, recorded, ?_⟩
  unfold resume
  split
  · refine .of_recovers follows.recovers ?_ fun _ => settled
    intro failure same
    cases same
  · split
    · exact .lost follows.recovers
    · exact Walk.follows_of_settled follows.recovers calm settled

theorem afterMiss_accords {owner : Node} (found : context.graph.find? walk.owner = some owner)
    (follows : walk.Follows visits) (recorded : Recorded context.task earlier visits engine)
    (last : Option (String × RecoId)) :
    Ensures (keepingRecords context.task) (context.afterMiss walk owner last) engine
      (TurnAccords earlier) := by
  refine ensures_bind.mpr ((draw_node_new recorded).imp ?_)
  rintro visit numbered ⟨recorded, isNew, drawn⟩
  refine ensures_bind.mpr ((recordVisit_recorded context recorded isNew drawn).imp ?_)
  intro _ final recorded
  split
  · rename_i calm
    split
    · rename_i none
      refine ensures_pure.mpr ⟨_, recorded, ?_⟩
      have noAction : Fault.noMatch = .actionFailed ↔ (Id.invalid : ActionId).isValid = true := by
        decide
      refine .of_unhandled follows.recovers (follows.calm calm) rfl noAction ?_ ?_
      · intro acted
        cases acted
      · intro _
        exact ⟨owner, found, List.isEmpty_iff.mp none⟩
    · rename_i handled
      exact ensures_pure.mpr ⟨_, recorded, follows.failed calm handled rfl⟩
  · rename_i recovering
    rw [Bool.not_eq_false] at recovering
    refine ensures_pure.mpr ⟨_, recorded, ?_⟩
    exact .of_twice follows.recovers (follows.recovering.mp recovering) rfl

/-- An action that was carried out has the identity of something. -/
theorem act_valid (task : TaskId) (visit : NodeId) (node : Node) (hit : RecoResult) :
    Ensures (keepingRecords task) (context.act visit node hit) engine fun acted _ =>
      ∀ action success, acted = .done action success → action.isValid = true := by
  refine .after fun ready middle => ?_
  split
  · exact ensures_pure.mpr nofun
  · exact ensures_pure.mpr nofun
  · refine ensures_bind.mpr (ensures_transact.mpr fun found _ own => ?_)
    have upward : found.ids.action ≤ found.ids.action + 1 := own.2
    refine .after fun _ _ => .after fun _ _ => .after fun _ _ => .after fun _ _ =>
      .after fun settled _ => ?_
    split
    · exact ensures_pure.mpr nofun
    · refine ensures_pure.mpr ?_
      rintro action success ⟨⟩
      rw [Id.isValid, decide_eq_true_eq]
      intro none
      -- the counter would have started again
      have zero : found.ids.action + 1 = 0 := congrArg Id.number none
      rw [zero, UInt64.le_zero_iff] at upward
      rw [upward] at zero
      cases zero

theorem afterHit_accords (follows : walk.Follows visits)
    (recorded : Recorded context.task earlier visits engine) (position : Nat)
    (hit : Memory.Eligible context.graph walk.memory) (reco : RecoResult) :
    Ensures (keepingRecords context.task) (context.afterHit walk position hit reco) engine
      (TurnAccords earlier) := by
  refine ensures_bind.mpr ((draw_node_new recorded).imp ?_)
  rintro visit numbered ⟨recorded, isNew, drawn⟩
  refine ensures_bind.mpr (((recorded.frame (steps_act _ _ _ _) drawn).and
    (act_valid _ _ _ _)).imp ?_)
  rintro acted middle ⟨⟨recorded, drawn⟩, valid⟩
  split
  · exact ensures_pure.mpr ⟨_, recorded, .suspended follows.recovers (.inr (.inr rfl))⟩
  · refine ensures_bind.mpr ((recordVisit_recorded context recorded isNew drawn).imp ?_)
    intro _ final recorded
    exact ensures_pure.mpr ⟨_, recorded, .stopped follows.recovers⟩
  · rename_i action success
    refine ensures_bind.mpr ((recordVisit_recorded context recorded isNew drawn).imp ?_)
    intro _ final recorded
    split
    · rename_i completed
      exact ensures_pure.mpr ⟨_, recorded, follows.completed rfl completed⟩
    · rename_i failed
      rw [Bool.not_eq_true] at failed
      split
      · rename_i recovering
        refine ensures_pure.mpr ⟨_, recorded, ?_⟩
        exact .of_twice follows.recovers (follows.recovering.mp recovering) failed
      · rename_i calm
        rw [Bool.not_eq_true] at calm
        split
        · rename_i none
          refine ensures_pure.mpr ⟨_, recorded, ?_⟩
          refine .of_unhandled follows.recovers (follows.calm calm) failed
            (iff_of_true rfl (valid _ _ rfl)) ?_ ?_
          · intro _
            exact ⟨hit.node, hit.found, List.isEmpty_iff.mp none⟩
          · intro missed
            cases missed
        · rename_i handled
          exact ensures_pure.mpr ⟨_, recorded, follows.failed calm handled failed⟩

theorem look_accords (follows : walk.Follows visits)
    (recorded : Recorded context.task earlier visits engine)
    (something : walk.candidates ≠ []) :
    Ensures (keepingRecords context.task) (context.look walk something) engine
      (TurnAccords earlier) := by
  unfold look
  split
  · exact ensures_pure.mpr ⟨_, recorded, .lost follows.recovers⟩
  · rename_i owner found
    refine ensures_bind.mpr (((recorded.frame (steps_scan _ _ _ _ _) (UInt64.le_refl _)).and
      (scan_fits _ _ _ _ _ _)).imp ?_)
    rintro scan middle ⟨⟨recorded, -⟩, fits⟩
    split
    · exact afterHit_accords follows recorded _ _ _
    · exact afterMiss_accords found follows recorded _
    · obtain ⟨calm, settled⟩ := follows.settled (.inr fits)
      exact ensures_pure.mpr
        ⟨_, recorded, Walk.follows_of_settled follows.recovers calm settled⟩
    · exact ensures_pure.mpr ⟨_, recorded, .suspended follows.recovers (.inl rfl)⟩
    · exact ensures_pure.mpr ⟨_, recorded, .lost follows.recovers⟩
    · exact ensures_pure.mpr ⟨_, recorded, .suspended follows.recovers (.inr (.inl rfl))⟩
    · exact ensures_pure.mpr ⟨_, recorded, .suspended follows.recovers (.inr (.inr rfl))⟩

/-- **What agrees with the visits before a turn agrees with them after it.** -/
theorem turn_accords (follows : walk.Follows visits)
    (recorded : Recorded context.task earlier visits engine) :
    Ensures (keepingRecords context.task) (context.turn walk) engine (TurnAccords earlier) := by
  refine ensures_bind.mpr ((recorded.frame (steps_reads _) (UInt64.le_refl _)).imp ?_)
  rintro isStopped middle ⟨recorded, -⟩
  split
  · exact ensures_pure.mpr ⟨_, recorded, .suspended follows.recovers (.inl rfl)⟩
  · split
    · exact ensures_pure.mpr (resume_accords follows _ recorded)
    · exact look_accords follows recorded _

/-! ## Runs -/

/-- **The visits that a run appends to its task tell how the run ended.** -/
theorem run_accords {memory memory' : Memory} {entry : String} {engine final : Engine}
    {result : RunResult} {detail : TaskDetail}
    (listed : engine.cache.task? context.task = some detail)
    (ends : (context.run memory entry).Ends (keepingRecords context.task) engine
      (memory', result) final) :
    ∃ visits last before,
      (final.cache.task? context.task).map TaskDetail.visits =
        some (detail.visits ++ visits.map NodeDetail.id) ∧
      (∀ visit ∈ visits, final.cache.node? visit.id = some visit) ∧
      context.Passes (keepingRecords context.task) (Walk.start memory entry) engine last before ∧
      (context.turn last).Ends (keepingRecords context.task) before
        (.finished memory' result) final ∧
      Accord context.graph last.owner visits result := by
  have none : Recorded context.task detail.visits [] engine := by
    refine ⟨?_, nofun, nofun⟩
    rw [listed, List.map_nil, List.append_nil]
    rfl
  obtain ⟨last, before, passes, turned⟩ := run_ends ends
  obtain ⟨visits, recorded, follows⟩ := passes.keeps
    (fun walk engine => ∃ visits,
      Recorded context.task detail.visits visits engine ∧ walk.Follows visits)
    (fun walk engine holds => by
      obtain ⟨visits, recorded, follows⟩ := holds
      refine (turn_accords follows recorded).imp ?_
      rintro turn final ⟨visits, recorded, holds⟩
      cases turn with
      | finished memory result => trivial
      | next walk' closer => exact ⟨visits, recorded, holds⟩)
    ⟨[], none, Walk.follows_start memory entry⟩
  obtain ⟨visits, recorded, accord⟩ := turn_accords follows recorded _ _ turned
  exact ⟨visits, last, before, recorded.listed, recorded.known, passes, turned, accord⟩

/-! ### A run that misses its only node -/

/-- A node that has no time to appear. -/
def fleeting : Node := { Node.ofDefaults "A" default with timeout := 0 }

/-- A run for which no frame is captured in time. -/
def hasty : RunContext where
  graph := Graph.empty.insert fleeting
  signal := ⟨⟨1⟩, 0⟩
  controller := 0
  recognizer := .replaced 0
  actuator := .replaced 0
  patience := 1

/-- An engine with a task that was just posted. -/
def posted : Engine :=
  { Engine.new false with cache := Cache.empty.putTask (.posted ⟨1⟩ "A" default) }

/-! The run may take place in any setting in which others may do nothing, and its own
steps may do what they do where records are kept. Others move while the screen is
captured. -/

section Hasty

variable {setting : Setting Engine} (idle : ∀ engine, setting.others engine engine)
  (own : ∀ before after, (keepingRecords ⟨1⟩).own before after → setting.own before after)

include idle own

theorem hasty_scan (memory : Memory) (running : engine.stopped.contains ⟨1⟩ = false)
    {found : Engine} (meanwhile : setting.others engine found) :
    (hasty.scan memory fleeting ["A"] 1).Ends setting engine (.missed none)
      { found with stats := found.stats.countCapture false } := by
  have looks := fun engine => own engine engine (keepingRecords_rfl ⟨1⟩ engine).2
  refine .ask ?_ ?_
  · exact (0 : Nat)
  show Ends _ (hasty.scanRounds memory fleeting ["A"] 1 0 1 none) _ _ _
  unfold scanRounds
  refine ends_bind.mpr ⟨false, engine, ?_, ?_⟩
  · rw [← running]
    exact .step (idle _) (looks _) (.done _ _)
  · refine ends_bind.mpr ⟨(0 : Nat), engine, .ask _ (.done _ _), ?_⟩
    refine ends_bind.mpr ⟨some (.missed true none),
      { found with stats := found.stats.countCapture false }, ?_, ?_⟩
    · refine .ask ?_ ?_
      · exact Reply.returned (none : Option Frame)
      exact .step meanwhile (own _ _ (keepingRecords_rfl ⟨1⟩ found).2) (.done _ _)
    · refine .ask ?_ ?_
      · exact (0 : Nat)
      exact .done _ _

/-- A visit can be put on record. -/
theorem hasty_recordVisit (detail : NodeDetail) (engine : Engine) :
    ∃ final, (hasty.recordVisit detail).Ends setting engine () final := by
  have looks : ∀ before after : Engine, before.ids = after.ids → setting.own before after := by
    intro before after same
    have counts := (keepingRecords_rfl ⟨1⟩ before).2
    refine own before after ⟨?_, ?_⟩
    · rw [← same]
      exact counts.1
    · rw [← same]
      exact counts.2
  have nodes : (withCache (Cache.recordNode detail)).Ends setting engine () _ :=
    .step (idle _) (looks _ _ rfl) (.step (idle _) (looks _ _ rfl) (.done _ _))
  exact ⟨_, ends_bind.mpr ⟨(), _, nodes, .step (idle _) (looks _ _ rfl) (.done _ _)⟩⟩

theorem hasty_afterMiss (engine : Engine) (upward : engine.ids.node ≤ engine.ids.node + 1) :
    ∃ final, (hasty.afterMiss (Walk.start .empty "A") fleeting none).Ends setting
      engine (failed .empty (.unhandled .noMatch)) final := by
  have drawn : (draw .node).Ends setting engine (engine.ids.draw .node).1
      { engine with ids := (engine.ids.draw .node).2 } :=
    .step (idle _) (own _ _ ⟨upward, UInt64.le_refl _⟩) (.done _ _)
  obtain ⟨final, records⟩ := hasty_recordVisit idle own
    ⟨(engine.ids.draw .node).1, "A", .invalid, .invalid, false⟩
    { engine with ids := (engine.ids.draw .node).2 }
  exact ⟨final, ends_bind.mpr ⟨_, _, drawn, ends_bind.mpr ⟨(), final, records, .done _ _⟩⟩⟩

/-- The run ends with the failure of its only round. -/
theorem hasty_run {found : Engine} (meanwhile : setting.others posted found)
    (upward : found.ids.node ≤ found.ids.node + 1) : ∃ middle final,
    middle.stopped = found.stopped ∧
    (hasty.afterMiss (Walk.start .empty "A") fleeting none).Ends setting middle
      (failed .empty (.unhandled .noMatch)) final ∧
    (hasty.run .empty "A").Ends setting posted
      (.empty, .ended (.failed (.unhandled .noMatch))) final := by
  have isNode : hasty.graph.find? (Walk.start .empty "A").owner = some fleeting := by
    rw [hasty, Graph.find?_insert]
    rfl
  obtain ⟨final, missed⟩ := hasty_afterMiss idle own
    { found with stats := found.stats.countCapture false } upward
  refine ⟨{ found with stats := found.stats.countCapture false }, final, rfl, missed, ?_⟩
  unfold run walkOn
  refine ends_bind.mpr ⟨failed .empty (.unhandled .noMatch), final, ?_, .done _ _⟩
  have looks := own posted posted (keepingRecords_rfl ⟨1⟩ posted).2
  refine ends_bind.mpr ⟨false, posted, .step (idle _) looks (.done _ _), ?_⟩
  show Ends _ (hasty.look (Walk.start .empty "A") (List.cons_ne_nil _ _)) _ _ _
  unfold look
  rw [isNode]
  exact ends_bind.mpr ⟨.missed none, _, hasty_scan idle own .empty rfl meanwhile, missed⟩

end Hasty

theorem hasty_ends : ∃ final, (hasty.run .empty "A").Ends (keepingRecords ⟨1⟩) posted
    (.empty, .ended (.failed (.unhandled .noMatch))) final := by
  have idle := keepingRecords_rfl ⟨1⟩
  obtain ⟨-, final, -, -, ends⟩ := hasty_run (fun engine => (idle engine).1) (fun _ _ => id)
    (idle posted).1 (by decide)
  exact ⟨final, ends⟩

theorem hasty_accords :
    posted.cache.task? ⟨1⟩ = some (.posted ⟨1⟩ "A" default) ∧
    ∃ final visits last before,
      (hasty.run .empty "A").Ends (keepingRecords ⟨1⟩) posted
        (.empty, .ended (.failed (.unhandled .noMatch))) final ∧
      (final.cache.task? ⟨1⟩).map TaskDetail.visits = some (visits.map NodeDetail.id) ∧
      (∀ visit ∈ visits, final.cache.node? visit.id = some visit) ∧
      hasty.Passes (keepingRecords ⟨1⟩) (Walk.start .empty "A") posted last before ∧
      Accord hasty.graph last.owner visits (.ended (.failed (.unhandled .noMatch))) := by
  have here : posted.cache.task? hasty.task = some (.posted ⟨1⟩ "A" default) := by
    simp [posted, hasty, RunContext.task, Cache.task?, Cache.putTask, TaskDetail.posted]
  obtain ⟨final, ends⟩ := hasty_ends
  obtain ⟨visits, last, before, listed, known, passes, -, accord⟩ := run_accords here ends
  exact ⟨here, final, visits, last, before, ends, listed, known, passes, accord⟩

end RunContext

end ScreenPilot
