import ScreenPilot.Proofs.Run.Brackets
import ScreenPilot.Proofs.Run.Candidates
import ScreenPilot.Proofs.Run.Deeds
import ScreenPilot.Proofs.Run.Returns

/-!
# Nodes that are interrupted and resumed

A hit on an interrupt, or on a sub node, interrupts the node whose list was looked for, and
a list without candidates resumes the node that was interrupted last. The story of a run
shows it for every turn (`Orderly`), and from this it follows for the whole run that it
resumes nodes in the reverse order, and all of them if it succeeds (`run_interrupts`).

What carries the proof is where the list of a walk comes from (`Listed`): from it one knows
which positions are interrupts, and that the list belongs to the owner of the walk.
-/

set_option autoImplicit false

namespace ScreenPilot

/-- Where the list of a walk comes from. -/
inductive Origin where
  /-- The node that the run begins with. -/
  | entry
  /-- The next nodes and the interrupts of the owner. -/
  | followers
  /-- The nodes that the labels lead to which the owner goes back to. -/
  | jumpback
  /-- The nodes that handle the errors of the owner. -/
  | onError
  /-- The interrupts of the owner, of which none has appeared. -/
  | exhausted
deriving DecidableEq

/-- The moves of interrupted nodes in a turn. A hit from the interrupts on, or on a sub node,
puts the owner of the list on the stack, and a node that is resumed is taken off. -/
def Chapter.marks {graph : Graph} : Chapter graph → List Mark
  | ⟨walk, .looked (.hit position hit _), _⟩ =>
    if walk.interruptAt ≤ position ∨ hit.node.isSub then [.push walk.owner] else []
  | ⟨_, .resumed name, _⟩ => [.pop name]
  | _ => []

namespace RunContext

open Activity Engine

variable (context : RunContext) (setting : Setting Engine)

/-- The list of a walk is the one that its owner has in this place. -/
def Listed (walk : Walk) : Origin → Prop
  | .entry => walk.candidates = [walk.owner] ∧ walk.interruptAt = 1
  | .followers => ∃ owner, context.graph.find? walk.owner = some owner ∧ owner.jumpback = [] ∧
      walk.candidates = owner.next ++ owner.interrupt ∧ walk.interruptAt = owner.next.length
  | .jumpback => ∃ owner, context.graph.find? walk.owner = some owner ∧ owner.jumpback ≠ [] ∧
      walk.candidates = owner.jumpback.filterMap (fun label => walk.memory.checkpoints[label]?) ∧
      walk.interruptAt = walk.candidates.length
  | .onError => ∃ owner, context.graph.find? walk.owner = some owner ∧ owner.onError ≠ [] ∧
      walk.candidates = owner.onError ∧ walk.interruptAt = walk.candidates.length
  | .exhausted => ∃ owner, context.graph.find? walk.owner = some owner ∧ owner.jumpback = [] ∧
      owner.next = [] ∧ owner.interrupt ≠ [] ∧ walk.candidates = [] ∧
      ∃ ready middle, (context.scan walk.memory owner owner.interrupt 0).Ends setting ready
        .exhausted middle

/-- A turn interrupts and resumes nodes as it should. -/
structure Orderly (chapter : Chapter context.graph) : Prop where
  /-- Its list is one of its owner. If it has no candidates, it was computed so or its
  interrupts are exhausted. Unless it may hold interrupts, a hit on it interrupts the owner
  only for a sub node. -/
  listed : ∃ origin, context.Listed setting chapter.walk origin ∧
    (chapter.walk.candidates = [] → origin ≠ .entry ∧ origin ≠ .onError) ∧
    (origin ≠ .followers → ∀ position hit reco, chapter.deed = .looked (.hit position hit reco) →
      chapter.marks = if hit.node.isSub then [.push chapter.walk.owner] else [])
  /-- What it remembers of interrupted nodes is what its moves lead to, whether an action
  succeeded or not. -/
  stack : Leads chapter.walk.memory.interrupted chapter.marks chapter.turn.memory.interrupted
  /-- It resumes a node exactly if there are no candidates. -/
  resumes : (∃ name, chapter.deed = .resumed name) ↔
    chapter.walk.candidates = [] ∧ chapter.walk.memory.interrupted ≠ [] ∧ chapter.deed ≠ .halted
  /-- It resumes the node without more than a look at the requests to stop, and goes on with
  what follows the node now. -/
  resumed : ∀ name, chapter.deed = .resumed name → ∃ rest,
    chapter.walk.memory.interrupted = name :: rest ∧
    (context.turn chapter.walk = do
      if ← isStopped context.signal then
        pure (.finished chapter.walk.memory (.ended .stopped))
      else pure chapter.turn) ∧
    ∀ node, context.graph.find? name = some node → ∃ closer, chapter.turn =
      .next (Walk.follow { chapter.walk.memory with interrupted := rest } node
        chapter.walk.recovering) closer

variable {context setting}

/-! ## Where lists come from -/

theorem listed_start (memory : Memory) (entry : String) :
    context.Listed setting (Walk.start memory entry) .entry :=
  ⟨rfl, rfl⟩

/-- After a node, its own list is looked for, or the one that its labels lead to. -/
theorem listed_follow {node : Node} (found : context.graph.find? node.name = some node)
    (memory : Memory) (recovering : Bool) :
    ∃ origin, context.Listed setting (Walk.follow memory node recovering) origin := by
  cases labels : node.jumpback with
  | nil =>
    have own : memory.followers node = node.followers := by
      rw [Memory.followers, labels]
      rfl
    refine ⟨.followers, node, found, labels, ?_, ?_⟩
    · show (memory.followers node).1 = _
      rw [own]
      rfl
    · show (memory.followers node).2 = _
      rw [own]
      rfl
  | cons label rest =>
    have goesBack : node.jumpback ≠ [] := by
      rw [labels]
      exact List.cons_ne_nil _ _
    have targets : memory.followers node =
        (node.jumpback.filterMap fun label => memory.checkpoints[label]?,
          (node.jumpback.filterMap fun label => memory.checkpoints[label]?).length) := by
      rw [Memory.followers, if_neg (by simpa using goesBack)]
    refine ⟨.jumpback, node, found, goesBack, ?_, ?_⟩
    · exact congrArg Prod.fst targets
    · show (memory.followers node).2 = (memory.followers node).1.length
      rw [targets]

theorem listed_handle {walk : Walk} {node : Node}
    (found : context.graph.find? walk.owner = some node)
    (handled : ¬ node.onError.isEmpty = true) (list : walk.candidates = node.onError)
    (all : walk.interruptAt = node.onError.length) : context.Listed setting walk .onError := by
  refine ⟨node, found, fun none => handled (List.isEmpty_iff.mpr none), list, ?_⟩
  rw [list, all]

/-- A list of interrupts that is exhausted leaves its owner without candidates. -/
theorem listed_exhausted {walk : Walk} {owner : Node} {ready middle : Engine} {origin : Origin}
    (listed : context.Listed setting walk origin) (something : walk.candidates ≠ [])
    (found : context.graph.find? walk.owner = some owner)
    (scans : (context.scan walk.memory owner walk.candidates walk.interruptAt).Ends setting
      ready .exhausted middle) :
    context.Listed setting { walk with candidates := [] } .exhausted := by
  have all : walk.interruptAt = 0 := scan_fits _ _ _ _ _ _ _ _ scans
  have notAll : walk.interruptAt ≠ walk.candidates.length := by
    rw [all]
    exact fun none => something (List.length_eq_zero_iff.mp none.symm)
  cases origin with
  | entry =>
    rw [listed.2] at all
    cases all
  | followers =>
    obtain ⟨node, same, own, list, position⟩ := listed
    rw [found] at same
    cases same
    have none : owner.next = [] := List.length_eq_zero_iff.mp (position.symm.trans all)
    rw [none, List.nil_append] at list
    rw [list] at something
    rw [list, all] at scans
    exact ⟨owner, found, own, none, something, rfl, ready, middle, scans⟩
  | jumpback =>
    obtain ⟨_, _, _, _, position⟩ := listed
    exact absurd position notAll
  | onError =>
    obtain ⟨_, _, _, _, position⟩ := listed
    exact absurd position notAll
  | exhausted =>
    obtain ⟨_, _, _, _, _, none, _⟩ := listed
    exact absurd none something

/-- The list that a run begins with, and one of nodes that handle errors, has candidates. -/
theorem Listed.of_nil {walk : Walk} {origin : Origin} (listed : context.Listed setting walk origin)
    (nothing : walk.candidates = []) : origin ≠ .entry ∧ origin ≠ .onError := by
  constructor
  · rintro rfl
    cases nothing.symm.trans listed.1
  · rintro rfl
    obtain ⟨_, _, some, list, _⟩ := listed
    exact some (list.symm.trans nothing)

/-! ## What a turn leaves behind -/

/-- The memory after a scan. -/
def memoryAfter (walk : Walk) : Scan context.graph walk.memory → Memory
  | .hit position hit _ => memoryAfterHit walk position hit.node
  | _ => walk.memory

/-- A turn goes on with a list of the owner, and the run has succeeded after it only if no
node is left interrupted. -/
def TurnListed (context : RunContext) (setting : Setting Engine) {walk : Walk}
    (turn : Turn context.graph walk) : Prop :=
  turn.Holds (fun next => ∃ origin, context.Listed setting next origin) fun memory result =>
    result = .ended .succeeded → memory.interrupted = []

variable {walk : Walk} {engine : Engine}

/-- A run that has not succeeded leaves what it leaves. -/
theorem turnListed_finished (memory : Memory) {result : RunResult}
    (other : result ≠ .ended .succeeded) :
    context.TurnListed setting (.finished memory result : Turn context.graph walk) :=
  fun same => absurd same other

theorem afterMiss_leaves {owner : Node} (found : context.graph.find? walk.owner = some owner)
    (last : Option (String × RecoId)) :
    Ensures setting (context.afterMiss walk owner last) engine fun turn _ =>
      turn.memory = walk.memory ∧ context.TurnListed setting turn := by
  refine .after fun visit _ => .after fun _ _ => ?_
  split
  · split
    · exact ensures_pure.mpr ⟨rfl, turnListed_finished _ (by decide)⟩
    · rename_i handled
      exact ensures_pure.mpr ⟨rfl, .onError, listed_handle found handled rfl rfl⟩
  · exact ensures_pure.mpr ⟨rfl, turnListed_finished _ (by decide)⟩

theorem afterHit_leaves (position : Nat) (hit : Memory.Eligible context.graph walk.memory)
    (reco : RecoResult) :
    Ensures setting (context.afterHit walk position hit reco) engine fun turn _ =>
      turn.memory = memoryAfterHit walk position hit.node ∧ context.TurnListed setting turn := by
  refine .after fun visit _ => .after fun acted _ => ?_
  split
  · exact ensures_pure.mpr ⟨rfl, turnListed_finished _ (by decide)⟩
  · exact .after fun _ _ => ensures_pure.mpr ⟨rfl, turnListed_finished _ (by decide)⟩
  · refine .after fun _ _ => ?_
    split
    · exact ensures_pure.mpr ⟨rfl, listed_follow hit.found _ _⟩
    · split
      · exact ensures_pure.mpr ⟨rfl, turnListed_finished _ (by decide)⟩
      · split
        · exact ensures_pure.mpr ⟨rfl, turnListed_finished _ (by decide)⟩
        · rename_i handled
          exact ensures_pure.mpr ⟨rfl, .onError, listed_handle hit.found handled rfl rfl⟩

/-! ## Turns that resume a node -/

theorem resume_of_nil (nothing : walk.candidates = []) (stack : walk.memory.interrupted = []) :
    context.resume walk nothing = .finished walk.memory (.ended .succeeded) := by
  unfold resume
  split
  · rfl
  · rename_i other
    rw [stack] at other
    cases other

/-- A turn that goes on with a walk has less left to do. -/
theorem goesOn {next : Walk} {turn : Turn context.graph walk}
    (holds : turn.Holds (· = next) fun _ _ => False) : ∃ closer, turn = .next next closer := by
  cases turn with
  | finished => cases holds
  | next walk' closer =>
    cases holds
    exact ⟨closer, rfl⟩

/-- The node that was interrupted last is resumed, if there is one of this name. -/
theorem resume_cases (nothing : walk.candidates = []) {name : String} {rest : List String}
    (stack : walk.memory.interrupted = name :: rest) :
    (context.graph.find? name = none ∧ context.resume walk nothing =
      failed { walk.memory with interrupted := rest } (.unknownNode name)) ∨
    ∃ node, context.graph.find? name = some node ∧ ∃ closer, context.resume walk nothing =
      .next (Walk.follow { walk.memory with interrupted := rest } node walk.recovering)
        closer := by
  unfold resume
  split
  · rename_i other
    rw [stack] at other
    cases other
  · rename_i other
    rw [stack] at other
    cases other
    split
    · rename_i absent
      exact .inl ⟨absent, rfl⟩
    · rename_i node found
      exact .inr ⟨node, found, goesOn rfl⟩

/-- A turn without candidates only looks whether it is to stop. -/
theorem turn_of_nothing (nothing : walk.candidates = []) :
    context.turn walk = (do
      if ← isStopped context.signal then pure (.finished walk.memory (.ended .stopped))
      else pure (context.resume walk nothing)) := by
  unfold turn
  simp only [dif_pos nothing]

/-! ## Chapters -/

variable {final : Engine} {deed : Deed context.graph walk} {turn : Turn context.graph walk}

/-- What a turn that looks for candidates leaves behind. -/
theorem heed_leaves {origin : Origin} (listed : context.Listed setting walk origin)
    (something : walk.candidates ≠ []) {owner : Node}
    (found : context.graph.find? walk.owner = some owner) {scan : Scan context.graph walk.memory}
    {ready : Engine}
    (scans : (context.scan walk.memory owner walk.candidates walk.interruptAt).Ends setting ready
      scan engine) :
    Ensures setting (context.heed walk something owner scan) engine fun turn _ =>
      turn.memory = memoryAfter walk scan ∧ context.TurnListed setting turn := by
  cases scan with
  | hit position hit reco => exact afterHit_leaves position hit reco
  | missed last => exact afterMiss_leaves found last
  | exhausted =>
    exact ensures_pure.mpr ⟨rfl, .exhausted, listed_exhausted listed something found scans⟩
  | stopped | unknown | crashed | unfinished => exact ensures_pure.mpr ⟨rfl, nofun⟩

theorem Does.listed {origin : Origin} (does : context.Does setting walk engine deed turn final)
    (listed : context.Listed setting walk origin) : context.TurnListed setting turn := by
  cases does with
  | halted | lost => exact nofun
  | concluded _ nothing stack =>
    rw [resume_of_nil nothing stack]
    exact fun _ => stack
  | resumed _ nothing stack =>
    rcases resume_cases nothing stack with ⟨-, fails⟩ | ⟨node, found, closer, next⟩
    · rw [fails]
      exact nofun
    · rw [next]
      have own : context.graph.find? node.name = some node := by
        rw [context.graph.named _ node found]
        exact found
      exact listed_follow own _ _
  | looked _ something found scans heeds =>
    exact (heed_leaves listed something found scans _ _ heeds).2

/-- What is remembered of interrupted nodes is what the moves lead to. -/
theorem Does.stack {origin : Origin} (does : context.Does setting walk engine deed turn final)
    (listed : context.Listed setting walk origin) :
    Leads walk.memory.interrupted (Chapter.mk walk deed turn).marks turn.memory.interrupted := by
  cases does with
  | halted | lost => exact .nil
  | concluded _ nothing stack =>
    rw [resume_of_nil nothing stack]
    exact .nil
  | @resumed _ name rest _ nothing stack =>
    have left : (context.resume walk nothing).memory.interrupted = rest := by
      rcases resume_cases nothing stack with ⟨-, fails⟩ | ⟨node, -, closer, next⟩
      · rw [fails]
        rfl
      · rw [next]
        rfl
    rw [left, stack]
    exact .pop .nil
  | @looked owner scan _ _ _ _ _ something found scans heeds =>
    have same := (heed_leaves listed something found scans _ _ heeds).1
    rw [same]
    cases scan with
    | hit position hit reco =>
      unfold memoryAfter memoryAfterHit Chapter.marks
      simp only []
      split
      · exact .push .nil walk.owner
      · exact .nil
    | missed | exhausted | stopped | unknown | crashed | unfinished => exact .nil

/-- Interrupts stand in lists of next nodes and interrupts only. -/
theorem Does.plain {origin : Origin} (does : context.Does setting walk engine deed turn final)
    (listed : context.Listed setting walk origin) (other : origin ≠ .followers) {position : Nat}
    {hit : Memory.Eligible context.graph walk.memory} {reco : RecoResult}
    (hits : deed = .looked (.hit position hit reco)) : position < walk.interruptAt := by
  subst hits
  cases does with
  | looked _ something found scans heeds =>
    have fits : walk.candidates[position]? = some hit.node.name :=
      scan_fits _ _ _ _ _ _ _ _ scans
    obtain ⟨inside, -⟩ := List.getElem?_eq_some_iff.mp fits
    cases origin with
    | entry =>
      obtain ⟨list, all⟩ := listed
      rw [list] at inside
      rw [all]
      exact inside
    | followers => exact absurd rfl other
    | jumpback | onError =>
      obtain ⟨_, _, _, _, all⟩ := listed
      rw [all]
      exact inside
    | exhausted =>
      obtain ⟨_, _, _, _, _, none, _⟩ := listed
      exact absurd none something

/-- **Every turn of a walk that looks for a list of its owner is orderly.** -/
theorem Does.orderly {origin : Origin} (does : context.Does setting walk engine deed turn final)
    (listed : context.Listed setting walk origin) : context.Orderly setting ⟨walk, deed, turn⟩ where
  listed := by
    refine ⟨origin, listed, listed.of_nil, fun other position hit reco hits => ?_⟩
    have inside := does.plain listed other hits
    have marked : ∀ deed' : Deed context.graph walk, deed' = .looked (.hit position hit reco) →
        Chapter.marks ⟨walk, deed', turn⟩ = if hit.node.isSub then [.push walk.owner] else [] := by
      rintro _ rfl
      have same : (walk.interruptAt ≤ position ∨ hit.node.isSub = true) =
          (hit.node.isSub = true) := propext (or_iff_right (Nat.not_le.mpr inside))
      simp only [Chapter.marks, same]
    exact marked deed hits
  stack := does.stack listed
  resumes := by
    cases does with
    | halted => exact ⟨nofun, fun ⟨_, _, notHalted⟩ => absurd rfl notHalted⟩
    | concluded _ _ stack => exact ⟨nofun, fun ⟨_, left, _⟩ => absurd stack left⟩
    | resumed _ nothing stack =>
      have left : walk.memory.interrupted ≠ [] := by
        rw [stack]
        exact List.cons_ne_nil _ _
      exact ⟨fun _ => ⟨nothing, left, nofun⟩, fun _ => ⟨_, rfl⟩⟩
    | lost _ something | looked _ something =>
      exact ⟨nofun, fun ⟨nothing, _, _⟩ => absurd nothing something⟩
  resumed := by
    rintro name resumes
    cases does with
    | resumed _ nothing stack =>
      cases resumes
      refine ⟨_, stack, turn_of_nothing nothing, fun node found => ?_⟩
      rcases resume_cases nothing stack with ⟨absent, -⟩ | ⟨other, same, next⟩
      · cases absent.symm.trans found
      · cases same.symm.trans found
        exact next
    | halted | concluded | lost | looked => cases resumes

/-! ## Runs -/

/-- A walk that a story leads to looks for a list of its owner, the chapters of the story
are orderly, and the nodes that are interrupted are those that its moves lead to. -/
theorem Tells.orderly {entry : String} {memory : Memory} {start : Engine}
    {chapters : List (Chapter context.graph)}
    (tells : context.Tells setting (Walk.start memory entry) start chapters walk engine) :
    (∃ origin, context.Listed setting walk origin) ∧
    (∀ chapter ∈ chapters, context.Orderly setting chapter) ∧
    Leads memory.interrupted (chapters.flatMap Chapter.marks) walk.memory.interrupted := by
  induction tells with
  | start =>
    refine ⟨⟨.entry, listed_start memory entry⟩, fun _ member => ?_, .nil⟩
    exact absurd member List.not_mem_nil
  | turn _ does ih =>
    obtain ⟨⟨origin, listed⟩, orderly, leads⟩ := ih
    refine ⟨does.listed listed, ?_, ?_⟩
    · intro chapter member
      rcases List.mem_append.mp member with earlier | last
      · exact orderly chapter earlier
      · rw [List.mem_singleton.mp last]
        exact does.orderly listed
    · rw [List.flatMap_append, List.flatMap_singleton]
      exact leads.trans (does.stack listed)

/-- **A run resumes the nodes it has interrupted in the reverse order, and all of them if it
succeeds.** -/
theorem run_interrupts {memory : Memory} {entry : String} {engine final : Engine}
    {result : RunResult}
    (ends : (context.run .empty entry).Ends setting engine (memory, result) final) :
    ∃ chapters last before deed,
      context.Tells setting (Walk.start .empty entry) engine chapters last before ∧
      context.Does setting last before deed (.finished memory result) final ∧
      let story := chapters ++ [⟨last, deed, .finished memory result⟩]
      let marks := story.flatMap Chapter.marks
      (∀ chapter ∈ story, context.Orderly setting chapter) ∧
      (∀ earlier name later, marks = earlier ++ .pop name :: later →
        ∃ before inner, earlier = before ++ .push name :: inner ∧ Balanced inner) ∧
      (result = .ended .succeeded → Balanced marks ∧ memory.interrupted = []) := by
  obtain ⟨chapters, last, before, deed, tells, does⟩ := run_tells ends
  obtain ⟨⟨origin, listed⟩, orderly, leads⟩ := tells.orderly
  have stack := leads.trans (does.stack listed)
  refine ⟨chapters, last, before, deed, tells, does, ?_, ?_, ?_⟩
  · intro chapter member
    rcases List.mem_append.mp member with earlier | isLast
    · exact orderly chapter earlier
    · rw [List.mem_singleton.mp isLast]
      exact does.orderly listed
  · intro earlier name later split
    rw [List.flatMap_append, List.flatMap_singleton] at split
    exact stack.matched split
  · intro succeeded
    have none : memory.interrupted = [] := does.listed listed succeeded
    rw [List.flatMap_append, List.flatMap_singleton]
    have all : Leads [] _ memory.interrupted := stack
    rw [none] at all
    exact ⟨all.balanced, none⟩

/-! ### A run that interrupts and resumes its only node -/

/-- A sub node, which interrupts itself when the run begins with it. -/
def nested : Node := { fleeting with isSub := true }

/-- A run that begins with the sub node. -/
def nesting : RunContext := { hasty with graph := Graph.empty.insert nested }

/-- The walk after the sub node was hit. -/
def nestedWalk : Walk :=
  Walk.follow (memoryAfterHit (Walk.start .empty "A") 0 nested) nested false

/-- The node is interrupted, resumed, and has no candidates left. -/
theorem nesting_succeeds :
    (standstill.carry (nesting.run .empty "A") (posted, ())).1.2 = .ended .succeeded := by
  unfold run
  rw [walkOn]
  show Prod.snd (standstill.carry (nesting.walkOn nestedWalk) _).1 = _
  rw [walkOn]
  show Prod.snd (standstill.carry (nesting.walkOn
    (Walk.follow { nestedWalk.memory with interrupted := [] } nested false)) _).1 = _
  rw [walkOn]
  rfl

theorem nesting_interrupts : ∃ memory final,
    (nesting.run .empty "A").Ends standstill.setting posted (memory, .ended .succeeded) final ∧
    ∃ chapters last before deed,
      nesting.Tells standstill.setting (Walk.start .empty "A") posted chapters last before ∧
      nesting.Does standstill.setting last before deed (.finished memory (.ended .succeeded))
        final ∧
      let story := chapters ++ [⟨last, deed, .finished memory (.ended .succeeded)⟩]
      let marks := story.flatMap Chapter.marks
      (∀ chapter ∈ story, nesting.Orderly standstill.setting chapter) ∧
      Balanced marks ∧ memory.interrupted = [] := by
  have ends : (nesting.run .empty "A").Ends standstill.setting posted
      ((standstill.carry (nesting.run .empty "A") (posted, ())).1.1, .ended .succeeded)
      (standstill.carry (nesting.run .empty "A") (posted, ())).2.1 := by
    rw [← nesting_succeeds]
    exact standstill.ends_carry (nesting.run .empty "A") (posted, ())
  obtain ⟨chapters, last, before, deed, tells, does, orderly, -, succeeded⟩ := run_interrupts ends
  exact ⟨_, _, ends, chapters, last, before, deed, tells, does, orderly, succeeded rfl⟩

end RunContext

end ScreenPilot
