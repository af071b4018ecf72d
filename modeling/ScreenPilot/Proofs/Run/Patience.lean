import ScreenPilot.Proofs.Activity.Surroundings
import ScreenPilot.Proofs.Run.Turns

/-!
# Runs with more patience

A run follows each of its waits for so many rounds. With more patience it takes the
same course, unless a wait was left open (`walkOn_extends`).
-/

set_option autoImplicit false

namespace ScreenPilot

open Activity

/-! ## Waits for a still screen -/

namespace Actuator

open Engine

theorem watch_extends (signal : StopSignal) (controller : Handle) (wait : WaitFreezes)
    (started : Nat) {patience more : Nat} (le : patience ≤ more) (last : Frame) (since : Nat) :
    (watch signal controller wait started patience last since).Extends (· = .unfinished)
      (watch signal controller wait started more last since) := by
  induction patience generalizing more last since with
  | zero =>
    refine .more ?_ _
    rfl
  | succ patience ih =>
    obtain ⟨more, rfl⟩ : ∃ less, more = less + 1 := ⟨more - 1, by omega⟩
    replace ih := ih (Nat.le_of_succ_le_succ le)
    refine .after fun goesOn => ?_
    split
    · exact .refl _
    · refine .after fun time => ?_
      split
      · exact .refl _
      · refine .after fun reply => ?_
        split
        · exact .refl _
        · exact .refl _
        · split
          · exact .after fun time => ih _ time
          · refine .after fun time => ?_
            split
            · exact .refl _
            · exact ih _ _

theorem awaitStill_extends (actuator : Actuator) (signal : StopSignal) {patience more : Nat}
    (le : patience ≤ more) (wait : WaitFreezes) (node : Node) :
    (actuator.awaitStill signal patience wait node).Extends (· = .unfinished)
      (actuator.awaitStill signal more wait node) := by
  cases actuator with
  | replaced => exact .refl _
  | stock controller resource =>
    show Extends _ (awaitStillStock _ _ _ _) (awaitStillStock _ _ _ _)
    unfold awaitStillStock
    split
    · exact .refl _
    · refine .after fun started => .after fun reply => ?_
      split
      · exact .refl _
      · exact .refl _
      · exact .after fun time => watch_extends signal controller wait started le _ time

end Actuator

/-- A turn leaves a wait open. -/
def Turn.IsOpen {graph : Graph} {walk : Walk} (turn : Turn graph walk) : Prop :=
  ∃ memory, turn = .finished memory .unfinished

namespace RunContext

open Engine

/-- The run with another patience. -/
abbrev withPatience (context : RunContext) (patience : Nat) : RunContext :=
  { context with patience }

variable (context : RunContext) {patience more : Nat}

/-! ## Scans -/

theorem recognize_withPatience (frame : Frame) (node : Node) :
    (context.withPatience patience).recognize frame node = context.recognize frame node := rfl

theorem betweenRounds_withPatience (owner : Node) (deadline round : Nat) :
    (context.withPatience patience).betweenRounds owner deadline round =
      context.betweenRounds owner deadline round := rfl

theorem tryFrom_withPatience (memory : Memory) (frame : Frame) (position : Nat)
    (seen : List String) (tried : Bool) (last : Option (String × RecoId))
    (candidates : List String) :
    (context.withPatience patience).tryFrom memory frame position seen tried last candidates =
      context.tryFrom memory frame position seen tried last candidates := by
  induction candidates generalizing position seen tried last with
  | nil => rfl
  | cons name names ih =>
    unfold tryFrom
    simp only [ih, recognize_withPatience]
    split
    · rfl
    · split
      · rfl
      · split <;> rfl

theorem tryAll_withPatience (memory : Memory) (candidates : List String)
    (last : Option (String × RecoId)) :
    (context.withPatience patience).tryAll memory candidates last =
      context.tryAll memory candidates last := by
  unfold tryAll
  simp only [tryFrom_withPatience]

theorem scanRounds_withPatience (memory : Memory) (owner : Node) (candidates : List String)
    (interruptAt deadline rounds : Nat) (last : Option (String × RecoId)) :
    (context.withPatience patience).scanRounds memory owner candidates interruptAt deadline
        rounds last =
      context.scanRounds memory owner candidates interruptAt deadline rounds last := by
  induction rounds generalizing last with
  | zero => rfl
  | succ rounds ih =>
    unfold scanRounds
    simp only [ih, tryAll_withPatience, betweenRounds_withPatience]
    refine congrArg _ (funext fun stopped => ?_)
    split
    · rfl
    · refine congrArg _ (funext fun start => congrArg _ (funext fun round => ?_))
      split <;> rfl

theorem scanRounds_extends (memory : Memory) (owner : Node) (candidates : List String)
    (interruptAt deadline : Nat) (le : patience ≤ more) (last : Option (String × RecoId)) :
    (context.scanRounds memory owner candidates interruptAt deadline patience last).Extends
      (· = .unfinished)
      (context.scanRounds memory owner candidates interruptAt deadline more last) := by
  induction patience generalizing more last with
  | zero =>
    refine .more ?_ _
    rfl
  | succ patience ih =>
    obtain ⟨more, rfl⟩ : ∃ less, more = less + 1 := ⟨more - 1, by omega⟩
    replace ih := ih (Nat.le_of_succ_le_succ le)
    refine .after fun stopped => ?_
    split
    · exact .refl _
    · refine .after fun start => .after fun round => ?_
      split
      · exact .refl _
      · exact .refl _
      · exact .refl _
      · exact .refl _
      · refine .after fun goesOn => ?_
        split
        · exact .refl _
        · exact .refl _
        · exact ih _

theorem scan_extends (le : patience ≤ more) (memory : Memory) (owner : Node)
    (candidates : List String) (interruptAt : Nat) :
    ((context.withPatience patience).scan memory owner candidates interruptAt).Extends
      (· = .unfinished)
      ((context.withPatience more).scan memory owner candidates interruptAt) := by
  refine .after fun time => ?_
  simp only [scanRounds_withPatience]
  exact context.scanRounds_extends memory owner candidates interruptAt _ le none

/-! ## Actions -/

theorem settle_extends (le : patience ≤ more) (node : Node) (wait : WaitFreezes)
    (delay : UInt64) :
    ((context.withPatience patience).settle node wait delay).Extends (· = none)
      ((context.withPatience more).settle node wait delay) := by
  have awaits : ((context.withPatience patience).awaitStill node wait).Extends
      (· = .unfinished) ((context.withPatience more).awaitStill node wait) := by
    unfold awaitStill
    split
    · exact context.actuator.awaitStill_extends context.signal le wait node
    · exact .refl _
  refine awaits.bind ?_ fun waited => .refl _
  rintro _ rfl
  exact ⟨none, if_pos rfl, rfl⟩

theorem act_extends (le : patience ≤ more) (visit : NodeId) (node : Node) (hit : RecoResult) :
    ((context.withPatience patience).act visit node hit).Extends (· = .unfinished)
      ((context.withPatience more).act visit node hit) := by
  refine (context.settle_extends le node _ _).bind ?_ fun before => ?_
  · rintro _ rfl
    exact ⟨.unfinished, rfl, rfl⟩
  · split
    · exact .refl _
    · exact .refl _
    · refine .after fun id => .after fun _ => .after fun reply => .after fun _ => .after fun _ => ?_
      refine (context.settle_extends le node _ _).bind ?_ fun later => .refl _
      rintro _ rfl
      exact ⟨.unfinished, rfl, rfl⟩

/-! ## Turns and walks -/

theorem afterHit_extends (le : patience ≤ more) (walk : Walk) (position : Nat)
    (hit : Memory.Eligible context.graph walk.memory) (reco : RecoResult) :
    ((context.withPatience patience).afterHit walk position hit reco).Extends Turn.IsOpen
      ((context.withPatience more).afterHit walk position hit reco) := by
  refine .after fun visit => (context.act_extends le visit hit.node reco).bind ?_ ?_
  · rintro _ rfl
    exact ⟨_, rfl, _, rfl⟩
  · exact fun acted => .refl _

theorem turn_extends (le : patience ≤ more) (walk : Walk) :
    ((context.withPatience patience).turn walk).Extends Turn.IsOpen
      ((context.withPatience more).turn walk) := by
  refine .after fun stopped => ?_
  split
  · exact .refl _
  · split
    · exact .refl _
    · cases found : context.graph.find? walk.owner with
      | none =>
        have absent : ∀ rounds, (context.withPatience rounds).graph.find? walk.owner = none :=
          fun _ => found
        rw [look_of_absent _ _ (absent patience), look_of_absent _ _ (absent more)]
        exact .refl _
      | some owner =>
        have isOwner : ∀ rounds,
            (context.withPatience rounds).graph.find? walk.owner = some owner := fun _ => found
        rw [look_of_found _ _ (isOwner patience), look_of_found _ _ (isOwner more)]
        refine (context.scan_extends le walk.memory owner walk.candidates walk.interruptAt).bind
          ?_ ?_
        · rintro _ rfl
          exact ⟨_, rfl, _, rfl⟩
        · intro scan
          cases scan with
          | hit position node reco => exact context.afterHit_extends le walk position node reco
          | missed | exhausted | stopped | unknown | crashed | unfinished => exact .refl _

/-- **With more patience a walk takes the same course**, unless a wait was left open. -/
theorem walkOn_extends (le : patience ≤ more) (walk : Walk) :
    ((context.withPatience patience).walkOn walk).Extends (·.2 = .unfinished)
      ((context.withPatience more).walkOn walk) := by
  unfold walkOn
  refine (context.turn_extends le walk).bind ?_ ?_
  · rintro _ ⟨memory, rfl⟩
    exact ⟨_, rfl, rfl⟩
  · intro turn
    cases turn with
    | finished => exact .refl _
    | next walk' closer => exact walkOn_extends le walk'
termination_by walk.left context.graph
decreasing_by exact closer

end RunContext

end ScreenPilot
