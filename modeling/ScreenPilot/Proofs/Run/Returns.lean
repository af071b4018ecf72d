import ScreenPilot.Proofs.Run.Accord
import ScreenPilot.Proofs.Run.Patience
import ScreenPilot.Proofs.Run.Visits

/-!
# Runs return

A run returns if whatever it waits for on its way comes to an end (`Settles`), whatever the
graph is and however the outside answers. The walk that a turn leads to has less left to
do, so there is a last turn; and each turn returns, because it looks for one list and acts
once at most.

A run that returns has ended with an outcome, unless the device crashed under it, and the
number of visits it has recorded is bounded by the hits that the graph allows
(`run_returns`).
-/

set_option autoImplicit false

namespace ScreenPilot

namespace RunContext

open Activity Engine

variable {ω : Type} (context : RunContext) (surroundings : Surroundings outside Engine ω)

/-! ## What a run waits for -/

/-- A turn that follows its waits for so many rounds. -/
def turnFor (walk : Walk) (patience : Nat) : Acting (Turn context.graph walk) :=
  (context.withPatience patience).turn walk

/-- The scan of the list of a walk in so many rounds. -/
def scanFor (walk : Walk) (owner : Node) (patience : Nat) :
    Acting (Scan context.graph walk.memory) :=
  (context.withPatience patience).scan walk.memory owner walk.candidates walk.interruptAt

/-- The walks that a run comes to, and what is there then. -/
inductive Comes (first : Walk) (start : Engine × ω) : Walk → Engine × ω → Prop where
  | here : Comes first start first start
  | turn {walk next : Walk} {before after : Engine × ω}
      {closer : next.Closer context.graph walk} (comes : Comes first start walk before)
      (returns : surroundings.Returns (context.turnFor walk) before (.next next closer) after) :
      Comes first start next after

/-- A run comes to look for the candidates of a walk, a list that belongs to `owner`. -/
def Seeks (first : Walk) (start : Engine × ω) (walk : Walk) (owner : Node)
    (before : Engine × ω) : Prop :=
  ∃ earlier, context.Comes surroundings first start walk earlier ∧
    surroundings.carry (isStopped context.signal) earlier = (false, before) ∧
    walk.candidates ≠ [] ∧ context.graph.find? walk.owner = some owner

/-- Whatever a run waits for comes to an end. -/
structure Settles (first : Walk) (start : Engine × ω) : Prop where
  /-- Any list is looked for in so many rounds. -/
  scans : ∀ walk owner before, context.Seeks surroundings first start walk owner before →
    ∃ patience, (surroundings.carry (context.scanFor walk owner patience) before).1 ≠ .unfinished
  /-- The stock actuator waits for a still screen in so many rounds, before and after any
  action. Another actuator waits on its own and answers once. -/
  acts : ∀ controller resource, context.actuator = .stock controller resource →
    ∀ walk owner before patience position hit reco middle visit after,
    context.Seeks surroundings first start walk owner before →
    surroundings.carry (context.scanFor walk owner patience) before =
      (.hit position hit reco, middle) →
    surroundings.carry (draw .node) middle = (visit, after) →
    ∃ rounds, (surroundings.carry ((context.withPatience rounds).act visit hit.node reco)
      after).1 ≠ .unfinished

/-- A run is over: it has ended, or the device crashed while the screen was captured. -/
def Over (result : RunResult) : Prop :=
  (∃ outcome, result = .ended outcome) ∨
    result = .crashed ∧
      ∃ before, (surroundings.answer (.capture context.controller) before).1 = .crashed

/-- A turn returns, and if the run is over with it, then for a reason. -/
def Completes {walk : Walk} (turn : Nat → Acting (Turn context.graph walk))
    (before : Engine × ω) : Prop :=
  ∃ value final, surroundings.Returns turn before value final ∧
    value.Holds (fun _ => True) fun _ result => context.Over surroundings result

variable {context} {surroundings}

/-! ## Crashes -/

theorem capture_crashed {controller : Handle} {before : Engine × ω}
    (crashed : (surroundings.carry (capture controller) before).1 = .crashed) :
    (surroundings.answer (.capture controller) before).1 = .crashed := by
  unfold capture at crashed
  rw [Surroundings.carry_bind] at crashed
  split at crashed
  · assumption
  · cases crashed

theorem tryAll_crashed {memory : Memory} {candidates : List String}
    {last : Option (String × RecoId)} {before : Engine × ω}
    (crashed : (surroundings.carry (context.tryAll memory candidates last) before).1 = none) :
    ∃ before, (surroundings.answer (.capture context.controller) before).1 = .crashed := by
  unfold tryAll at crashed
  rw [Surroundings.carry_bind] at crashed
  split at crashed
  · rename_i reply
    exact ⟨before, capture_crashed reply⟩
  · cases crashed
  · rename_i frame _
    have hit : (surroundings.carry (some <$> context.tryFrom memory frame 0 [] false last
        candidates) (surroundings.carry (capture context.controller) before).2).1 =
        some (surroundings.carry (context.tryFrom memory frame 0 [] false last candidates)
          (surroundings.carry (capture context.controller) before).2).1 :=
      congrArg Prod.fst (surroundings.carry_bind _ _ _)
    rw [hit] at crashed
    cases crashed

/-- To give up is an end of its own. -/
theorem giveUp_ends {graph : Graph} {memory : Memory} (interruptAt : Nat)
    (last : Option (String × RecoId)) :
    (giveUp interruptAt last : Scan graph memory) ≠ .crashed ∧
      (giveUp interruptAt last : Scan graph memory) ≠ .unfinished := by
  unfold giveUp
  split
  · exact ⟨nofun, nofun⟩
  · exact ⟨nofun, nofun⟩

theorem scanRounds_crashed {memory : Memory} {owner : Node} {candidates : List String}
    {interruptAt deadline patience : Nat} {last : Option (String × RecoId)} {before : Engine × ω}
    (crashed : (surroundings.carry (context.scanRounds memory owner candidates interruptAt
      deadline patience last) before).1 = .crashed) :
    ∃ before, (surroundings.answer (.capture context.controller) before).1 = .crashed := by
  induction patience generalizing last before with
  | zero => cases crashed
  | succ patience ih =>
    unfold scanRounds at crashed
    rw [Surroundings.carry_bind] at crashed
    split at crashed
    · cases crashed
    · rw [Surroundings.carry_bind, Surroundings.carry_bind] at crashed
      split at crashed
      · rename_i none
        exact tryAll_crashed none
      · cases crashed
      · cases crashed
      · exact absurd crashed (giveUp_ends _ _).1
      · rw [Surroundings.carry_bind] at crashed
        split at crashed
        · exact absurd crashed (giveUp_ends _ _).1
        · cases crashed
        · exact ih crashed

/-- Looking for candidates crashes only with a capture. -/
theorem scan_crashed {memory : Memory} {owner : Node} {candidates : List String}
    {interruptAt : Nat} {before : Engine × ω}
    (crashed : (surroundings.carry (context.scan memory owner candidates interruptAt)
      before).1 = .crashed) :
    ∃ before, (surroundings.answer (.capture context.controller) before).1 = .crashed := by
  unfold scan at crashed
  rw [Surroundings.carry_bind] at crashed
  exact scanRounds_crashed crashed

variable {walk : Walk} {before middle : Engine × ω} {setting : Setting Engine} {engine : Engine}

/-! ## Actions -/

/-- An actuator that takes the place of the stock one waits on its own. -/
theorem awaitStill_closed {actuator : Handle} (replaced : context.actuator = .replaced actuator)
    (node : Node) (wait : WaitFreezes) :
    Ensures setting (context.awaitStill node wait) engine fun waited _ =>
      waited ≠ .unfinished := by
  unfold awaitStill
  rw [replaced]
  split
  · refine .after fun reply _ => ?_
    split
    · exact ensures_pure.mpr nofun
    · exact ensures_pure.mpr nofun
  · exact ensures_pure.mpr nofun

theorem settle_closed {actuator : Handle} (replaced : context.actuator = .replaced actuator)
    (node : Node) (wait : WaitFreezes) (delay : UInt64) :
    Ensures setting (context.settle node wait delay) engine fun ready _ => ready ≠ none := by
  refine ensures_bind.mpr ((awaitStill_closed replaced node wait).imp fun waited _ closed => ?_)
  rw [if_neg closed]
  refine .after fun short _ => ?_
  split
  · exact ensures_pure.mpr nofun
  · exact .after fun _ _ => ensures_pure.mpr nofun

/-- With such an actuator no action is left open. -/
theorem act_closed {actuator : Handle} (replaced : context.actuator = .replaced actuator)
    (visit : NodeId) (node : Node) (reco : RecoResult) :
    Ensures setting (context.act visit node reco) engine fun acted _ => acted ≠ .unfinished := by
  refine ensures_bind.mpr ((settle_closed replaced node _ _).imp fun ready _ closed => ?_)
  split
  · exact absurd rfl closed
  · exact ensures_pure.mpr nofun
  · refine .after fun _ _ => .after fun _ _ => .after fun _ _ => .after fun _ _ =>
      .after fun _ _ => ?_
    refine ensures_bind.mpr ((settle_closed replaced node _ _).imp fun later _ closed => ?_)
    split
    · exact absurd rfl closed
    · exact ensures_pure.mpr nofun

/-! ## Turns -/

/-- What follows an activity that returns completes the turn. -/
theorem Completes.after {α : Type} {first : Nat → Acting α} {value : α}
    {next : Nat → α → Acting (Turn context.graph walk)}
    (returns : surroundings.Returns first before value middle)
    (completes : context.Completes surroundings (next · value) middle) :
    context.Completes surroundings (fun patience => first patience >>= next patience)
      before := by
  obtain ⟨turn, final, returns', isOver⟩ := completes
  exact ⟨turn, final, returns.bind returns', isOver⟩

/-- What has nothing to wait for completes the turn. -/
theorem completes_const {turn : Nat → Acting (Turn context.graph walk)}
    (same : ∀ patience, turn patience = turn 0)
    (isOver : Ensures surroundings.setting (turn 0) before.1 fun turn _ =>
      turn.Holds (fun _ => True) fun _ result => context.Over surroundings result) :
    context.Completes surroundings turn before := by
  have returns : surroundings.Returns turn before (surroundings.carry (turn 0) before).1
      (surroundings.carry (turn 0) before).2 :=
    ⟨0, fun patience _ => congrArg (surroundings.carry · before) (same patience)⟩
  exact ⟨_, _, returns, surroundings.carry_of_ensures isOver⟩

/-- A run that ends is over. -/
theorem over_ended (outcome : RunOutcome) : context.Over surroundings (.ended outcome) :=
  .inl ⟨outcome, rfl⟩

theorem resume_over (nothing : walk.candidates = []) :
    (context.resume walk nothing).Holds (fun _ => True) fun _ result =>
      context.Over surroundings result := by
  unfold resume
  split
  · exact over_ended _
  · split
    · exact over_ended _
    · trivial

theorem afterMiss_over (owner : Node) (last : Option (String × RecoId)) :
    Ensures setting (context.afterMiss walk owner last) engine fun turn _ =>
      turn.Holds (fun _ => True) fun _ result => context.Over surroundings result := by
  refine .after fun visit _ => .after fun _ _ => ?_
  split
  · split
    · exact ensures_pure.mpr (over_ended _)
    · exact ensures_pure.mpr trivial
  · exact ensures_pure.mpr (over_ended _)

/-- A turn in which a candidate was hit completes if its action does. -/
theorem afterHit_completes (position : Nat) (hit : Memory.Eligible context.graph walk.memory)
    (reco : RecoResult) {visit : NodeId} {after : Engine × ω}
    (drawn : surroundings.carry (draw .node) before = (visit, after)) {patience : Nat}
    (acts : (surroundings.carry ((context.withPatience patience).act visit hit.node reco)
      after).1 ≠ .unfinished) :
    context.Completes surroundings
      (fun patience => (context.withPatience patience).afterHit walk position hit reco)
      before := by
  have draws : surroundings.Returns (fun _ => draw .node) before visit after := by
    have returns : surroundings.Returns (fun _ => draw .node) before _ _ :=
      Surroundings.returns_const (draw .node) before
    rw [drawn] at returns
    exact returns
  have returns := Extends.returns
    (fun patience more le => context.act_extends le visit hit.node reco) acts
  refine .after draws (.after returns (completes_const (fun _ => rfl) ?_))
  split
  · rename_i unfinished
    exact absurd unfinished acts
  · exact .after fun _ _ => ensures_pure.mpr (over_ended _)
  · refine .after fun _ _ => ?_
    split
    · exact ensures_pure.mpr trivial
    · split
      · exact ensures_pure.mpr (over_ended _)
      · split
        · exact ensures_pure.mpr (over_ended _)
        · exact ensures_pure.mpr trivial

/-- A walk goes on with what came of looking for its candidates. -/
theorem heed_completes {first : Walk} {start : Engine × ω}
    (settles : context.Settles surroundings first start) {owner : Node}
    (seeks : context.Seeks surroundings first start walk owner before)
    (something : walk.candidates ≠ []) {patience : Nat} {scan : Scan context.graph walk.memory}
    (scans : surroundings.carry (context.scanFor walk owner patience) before = (scan, middle))
    (closed : scan ≠ .unfinished) :
    context.Completes surroundings
      (fun patience => (context.withPatience patience).heed walk something owner scan) middle := by
  cases scan with
  | hit position hit reco =>
    cases actuator : context.actuator with
    | replaced =>
      have replaced : (context.withPatience 0).actuator = _ := actuator
      have acts := fun visit (after : Engine × ω) => surroundings.carry_of_ensures
        (act_closed replaced visit hit.node reco : Ensures _ _ after.1 _)
      exact afterHit_completes position hit reco rfl (acts _ _)
    | stock =>
      obtain ⟨rounds, acts⟩ := settles.acts _ _ actuator walk owner before patience position hit
        reco middle _ _ seeks scans rfl
      exact afterHit_completes position hit reco rfl acts
  | missed last => exact completes_const (fun _ => rfl) (afterMiss_over owner last)
  | exhausted => exact completes_const (fun _ => rfl) (ensures_pure.mpr trivial)
  | stopped => exact completes_const (fun _ => rfl) (ensures_pure.mpr (over_ended _))
  | unknown name => exact completes_const (fun _ => rfl) (ensures_pure.mpr (over_ended _))
  | crashed =>
    have crash := scan_crashed (congrArg Prod.fst scans)
    exact completes_const (fun _ => rfl) (ensures_pure.mpr (.inr ⟨rfl, crash⟩))
  | unfinished => exact absurd rfl closed

/-- A turn that looks for candidates completes. -/
theorem look_completes {first : Walk} {start earlier : Engine × ω}
    (settles : context.Settles surroundings first start)
    (comes : context.Comes surroundings first start walk earlier)
    (goesOn : surroundings.carry (isStopped context.signal) earlier = (false, before))
    (something : walk.candidates ≠ []) :
    context.Completes surroundings
      (fun patience => (context.withPatience patience).look walk something) before := by
  cases found : context.graph.find? walk.owner with
  | none =>
    have looks : ∀ patience, (context.withPatience patience).look walk something =
        pure (failed walk.memory (.unknownNode walk.owner)) :=
      fun patience => look_of_absent (context.withPatience patience) something found
    rw [funext looks]
    exact completes_const (fun _ => rfl) (ensures_pure.mpr (over_ended _))
  | some owner =>
    have looks : ∀ patience, (context.withPatience patience).look walk something =
        context.scanFor walk owner patience >>=
          (context.withPatience patience).heed walk something owner :=
      fun patience => look_of_found (context.withPatience patience) something found
    rw [funext looks]
    have seeks : context.Seeks surroundings first start walk owner before :=
      ⟨earlier, comes, goesOn, something, found⟩
    obtain ⟨patience, closed⟩ := settles.scans walk owner before seeks
    have extends' : ∀ patience more, patience ≤ more →
        (context.scanFor walk owner patience).Extends (· = .unfinished)
          (context.scanFor walk owner more) :=
      fun _ _ le => context.scan_extends le walk.memory owner walk.candidates walk.interruptAt
    have returns := Extends.returns extends' closed
    exact .after returns (heed_completes settles seeks something rfl closed)

/-- **Every turn that a run comes to completes.** -/
theorem turn_completes {first : Walk} {start : Engine × ω}
    (settles : context.Settles surroundings first start)
    (comes : context.Comes surroundings first start walk before) :
    context.Completes surroundings (context.turnFor walk) before := by
  refine .after (Surroundings.returns_const (isStopped context.signal) before) ?_
  cases stopped : (surroundings.carry (isStopped context.signal) before).1 with
  | true =>
    simp only [if_true]
    exact completes_const (fun _ => rfl) (ensures_pure.mpr (over_ended _))
  | false =>
    simp only [Bool.false_eq_true, if_false]
    by_cases nothing : walk.candidates = []
    · simp only [dif_pos nothing]
      exact completes_const (fun _ => rfl) (ensures_pure.mpr (resume_over nothing))
    · simp only [dif_neg nothing]
      exact look_completes settles comes (Prod.ext stopped rfl) nothing

/-! ## Walks -/

/-- **Every walk that a run comes to returns.** -/
theorem walkOn_returns {first walk : Walk} {start before : Engine × ω}
    (settles : context.Settles surroundings first start)
    (comes : context.Comes surroundings first start walk before) :
    ∃ memory result final, surroundings.Returns
      (fun patience => (context.withPatience patience).walkOn walk) before (memory, result) final ∧
      context.Over surroundings result := by
  obtain ⟨turn, middle, returns, isOver⟩ := turn_completes settles comes
  unfold walkOn
  cases turn with
  | finished memory result =>
    refine ⟨memory, result, middle, Surroundings.Returns.bind returns ?_, isOver⟩
    exact ⟨0, fun _ _ => rfl⟩
  | next walk' closer =>
    obtain ⟨memory, result, final, returns', isOver⟩ := walkOn_returns settles (comes.turn returns)
    exact ⟨memory, result, final, Surroundings.Returns.bind returns returns', isOver⟩
termination_by walk.left context.graph
decreasing_by exact closer

/-- **A run returns.** If it remembers nothing of earlier runs, it records at most two visits
for each hit that the graph allows, and two more. -/
theorem run_returns (memory : Memory) (entry : String) (start : Engine × ω)
    (settles : context.Settles surroundings (Walk.start memory entry) start) :
    ∃ memory' result final,
      surroundings.Returns (fun patience => (context.withPatience patience).run memory entry) start
        (memory', result) final ∧
      context.Over surroundings result ∧
      (memory = .empty → Spared context.task surroundings.setting →
        final.1.cache.visitCount context.task ≤
          start.1.cache.visitCount context.task + (2 * context.graph.hitLimit + 2)) := by
  obtain ⟨memory', result, final, returns, isOver⟩ := walkOn_returns settles .here
  refine ⟨memory', result, final, returns, isOver, ?_⟩
  rintro rfl spared
  obtain ⟨patience, course⟩ := returns
  have ends := surroundings.ends_carry ((context.withPatience patience).run .empty entry) start
  have same : surroundings.carry ((context.withPatience patience).run .empty entry) start =
      ((memory', result), final) := course patience (Nat.le_refl _)
  rw [same] at ends
  have sparedToo : Spared (context.withPatience patience).task surroundings.setting := spared
  have few := run_visits sparedToo ends
  rw [Memory.chances_empty, Nat.add_assoc] at few
  exact few

/-! ### A run while the clock stands still -/

/-- While the clock stands still, a list whose owner has no time is looked for once. -/
theorem scan_closed {memory : Memory} {owner : Node} {candidates : List String}
    {interruptAt : Nat} {before : Engine × ω} (hurries : owner.timeout = 0)
    (stands : ∀ before, (surroundings.carry now before).1 = 0) :
    (surroundings.carry ((context.withPatience 1).scan memory owner candidates interruptAt)
      before).1 ≠ .unfinished := by
  unfold scan
  rw [Surroundings.carry_bind, stands, hurries]
  show (surroundings.carry ((context.withPatience 1).scanRounds memory owner candidates
    interruptAt 0 1 none) _).1 ≠ _
  unfold scanRounds
  rw [Surroundings.carry_bind]
  split
  · intro same; cases same
  · rw [Surroundings.carry_bind, Surroundings.carry_bind]
    split
    · intro same; cases same
    · intro same; cases same
    · intro same; cases same
    · exact (giveUp_ends _ _).2
    · have late : ∀ middle round, (surroundings.carry
          ((context.withPatience 1).betweenRounds owner 0 round) middle).1 = none := by
        intro middle round
        unfold betweenRounds
        rw [Surroundings.carry_bind]
        exact congrArg Prod.fst (congrArg (surroundings.carry · _) (if_pos (Nat.zero_le _)))
      rw [Surroundings.carry_bind, late]
      exact (giveUp_ends _ _).2

/-- Every node is recognized and every action succeeds, in no time. -/
def standstill : Surroundings outside Engine Unit where
  meanwhile := id
  answer question _ := ((match question with
    | .now => (0 : Nat)
    | .date => (default : Timestamp)
    | .rest _ _ => ()
    | .isConnected _ => true
    | .capture _ => Reply.returned (some default)
    | .send _ _ => Reply.returned true
    | .haltController _ => ()
    | .isLoaded _ => true
    | .graph _ => hasty.graph
    | .haltResource _ => ()
    | .recognitionPlugIn _ _ => none
    | .actionPlugIn _ _ => none
    | .analyze _ _ _ => Reply.returned none
    | .perform _ _ _ _ _ => Reply.returned true
    | .recognize _ _ _ => Reply.returned (some ⟨default, .null⟩)
    | .act _ _ _ => Reply.returned true
    | .awaitStill _ _ _ => Reply.returned true), ())

/-- A node that follows itself, three times at most. -/
def recurrent : Node := { fleeting with next := ["A"], maxHit := 3 }

/-- A run of the graph that is a loop. -/
def looping : RunContext := { hasty with graph := Graph.empty.insert recurrent }

theorem looping_returns :
    looping.Settles standstill (Walk.start .empty "A") (posted, ()) ∧
    ∃ memory result final,
      standstill.Returns (fun patience => (looping.withPatience patience).run .empty "A")
        (posted, ()) (memory, result) final ∧
      looping.Over standstill result ∧ final.1.cache.visitCount ⟨1⟩ ≤ 8 := by
  have settles : looping.Settles standstill (Walk.start .empty "A") (posted, ()) := by
    constructor
    · rintro walk owner before ⟨-, -, -, -, found⟩
      refine ⟨1, scan_closed ?_ fun _ => rfl⟩
      have only : (Graph.empty.insert recurrent).find? walk.owner = some owner := found
      rw [Graph.find?_insert] at only
      split at only
      · cases only
        rfl
      · cases only
    · exact nofun
  have spared : Spared looping.task standstill.setting := by
    rintro before after ⟨_, _, same⟩
    cases same
    exact Nat.le_refl _
  obtain ⟨memory, result, final, returns, isOver, few⟩ :=
    run_returns .empty "A" (posted, ()) settles
  exact ⟨settles, memory, result, final, returns, isOver, few rfl spared⟩

end RunContext

end ScreenPilot
