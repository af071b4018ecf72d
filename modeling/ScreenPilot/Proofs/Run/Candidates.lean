import ScreenPilot.Proofs.Activity.Among
import ScreenPilot.Run.Scan

/-!
# What looking for candidates can find

Whatever the device and the plug-ins do, a hit is on the candidate at the
position it reports, a name is reported as unknown only if it is listed and no
node has it, and a list is exhausted only if it holds interrupts alone
(`scan_fits`).
-/

set_option autoImplicit false

namespace ScreenPilot

/-- What a round over candidates reports agrees with the list, of which the
first name has a position. -/
def Round.Fits {graph : Graph} {memory : Memory} (position : Nat) (candidates : List String) :
    Round graph memory → Prop
  | .hit found node _ => ∃ index, found = position + index ∧
      candidates[index]? = some node.node.name
  | .unknown name => name ∈ candidates ∧ graph.find? name = none
  | .missed _ _ => True

/-- What a scan of candidates reports agrees with the list. -/
def Scan.Fits {graph : Graph} {memory : Memory} (candidates : List String) (interruptAt : Nat) :
    Scan graph memory → Prop
  | .hit position node _ => candidates[position]? = some node.node.name
  | .unknown name => name ∈ candidates ∧ graph.find? name = none
  | .exhausted => interruptAt = 0
  | .missed _ => interruptAt ≠ 0
  | .stopped | .crashed | .unfinished => True

/-- What is reported for the rest of a list is reported for the list. -/
theorem Round.Fits.cons {graph : Graph} {memory : Memory} {position : Nat}
    {candidates : List String} {round : Round graph memory}
    (fits : round.Fits (position + 1) candidates) (name : String) :
    round.Fits position (name :: candidates) := by
  cases round with
  | hit found node reco =>
    obtain ⟨index, rfl, listed⟩ := fits
    exact ⟨index + 1, by omega, listed⟩
  | unknown other => exact ⟨List.mem_cons_of_mem name fits.1, fits.2⟩
  | missed tried last => trivial

namespace RunContext

open Engine Activity

variable (context : RunContext) {setting : Setting Engine}

/-- The node that may be looked for under a name has that name. -/
theorem name_of_eligible? {graph : Graph} {memory : Memory} {name : String} {node : Node}
    (found : graph.find? name = some node) {eligible : Memory.Eligible graph memory}
    (able : memory.eligible? found = some eligible) : eligible.node.name = name := by
  unfold Memory.eligible? at able
  split at able
  · cases able
    exact graph.named name node found
  · cases able

theorem tryFrom_fits (memory : Memory) (frame : Frame) (candidates : List String)
    (position : Nat) (seen : List String) (tried : Bool) (last : Option (String × RecoId))
    (engine : Engine) :
    Ensures setting (context.tryFrom memory frame position seen tried last candidates) engine
      fun round _ => round.Fits position candidates := by
  induction candidates generalizing position seen tried last engine with
  | nil =>
    simp only [tryFrom, ensures_pure]
    trivial
  | cons name names ih =>
    have later := fun seen tried last engine =>
      (ih (position + 1) seen tried last engine).imp fun _ _ fits => fits.cons name
    unfold tryFrom
    split
    · exact later _ _ _ _
    · split
      · rename_i absent
        exact ensures_pure.mpr ⟨List.mem_cons_self, absent⟩
      · rename_i node found
        split
        · exact later _ _ _ _
        · rename_i eligible able
          refine .after fun reco _ => ?_
          split
          · refine ensures_pure.mpr ⟨0, rfl, ?_⟩
            rw [name_of_eligible? found able]
            rfl
          · exact later _ _ _ _

theorem tryAll_fits (memory : Memory) (candidates : List String)
    (last : Option (String × RecoId)) (engine : Engine) :
    Ensures setting (context.tryAll memory candidates last) engine
      fun round _ => ∀ ended, round = some ended → ended.Fits 0 candidates := by
  refine .after fun reply middle => ?_
  split
  · refine ensures_pure.mpr ?_
    intro ended same
    cases same
  · refine ensures_pure.mpr ?_
    intro ended same
    cases same
    trivial
  · refine ensures_map.mpr ((tryFrom_fits context _ _ _ _ _ _ _ _).imp fun round _ fits => ?_)
    intro ended same
    cases same
    exact fits

theorem giveUp_fits {graph : Graph} {memory : Memory} (candidates : List String)
    (interruptAt : Nat) (last : Option (String × RecoId)) :
    (giveUp interruptAt last : Scan graph memory).Fits candidates interruptAt := by
  unfold giveUp
  split
  · assumption
  · assumption

theorem scanRounds_fits (memory : Memory) (owner : Node) (candidates : List String)
    (interruptAt deadline patience : Nat) (last : Option (String × RecoId)) (engine : Engine) :
    Ensures setting
      (context.scanRounds memory owner candidates interruptAt deadline patience last) engine
      fun scan _ => scan.Fits candidates interruptAt := by
  induction patience generalizing last engine with
  | zero =>
    simp only [scanRounds, ensures_pure]
    trivial
  | succ patience ih =>
    unfold scanRounds
    refine .after fun isStopped _ => ?_
    split
    · exact ensures_pure.mpr trivial
    · refine .after fun start _ => ensures_bind.mpr ?_
      refine (tryAll_fits context _ _ _ _).imp fun round _ fits => ?_
      split
      · exact ensures_pure.mpr trivial
      · obtain ⟨index, rfl, listed⟩ := fits _ rfl
        refine ensures_pure.mpr ?_
        rw [Nat.zero_add]
        exact listed
      · exact ensures_pure.mpr (fits _ rfl)
      · exact ensures_pure.mpr (giveUp_fits _ _ _)
      · refine .after fun goOn _ => ?_
        split
        · exact ensures_pure.mpr (giveUp_fits _ _ _)
        · exact ensures_pure.mpr trivial
        · exact ih _ _

/-- **What a scan reports agrees with the list of candidates.** -/
theorem scan_fits (memory : Memory) (owner : Node) (candidates : List String)
    (interruptAt : Nat) (engine : Engine) :
    Ensures setting (context.scan memory owner candidates interruptAt) engine
      fun scan _ => scan.Fits candidates interruptAt :=
  .after fun _ _ => scanRounds_fits context _ _ _ _ _ _ _ _

end RunContext

end ScreenPilot
