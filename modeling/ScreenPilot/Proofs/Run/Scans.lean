import ScreenPilot.Proofs.Run.Polls
import ScreenPilot.Proofs.Run.Returns

/-!
# What scans report

A scan reports a hit, a name that no node has, a request to stop, or that it gave up. Each of
these has one cause in the rounds that it plays (`Reports`), and `scan_polls` says so of all
scans. The causes are read off the one way in which the scan was closed, since after all rounds
before the last one it went on.
-/

set_option autoImplicit false

namespace ScreenPilot

open Activity Engine

/-- Nodes are tried in order, and up to the first hit. -/
structure Tries (nodes : List Node) (attempts : List Attempt) : Prop where
  inOrder : attempts.map Attempt.node <+: nodes
  untilHit : AllMissed attempts.dropLast
  all : AllMissed attempts → attempts.map Attempt.node = nodes

theorem Tries.of_missed {nodes : List Node} {attempts : List Attempt} (missed : AllMissed attempts)
    (all : attempts.map Attempt.node = nodes) : Tries nodes attempts where
  inOrder := all ▸ List.prefix_refl _
  untilHit attempt member := missed attempt (List.dropLast_subset _ member)
  all _ := all

theorem Tries.of_hit {nodes : List Node} {missed : List Attempt} {last : Attempt}
    (allMissed : AllMissed missed) (isHit : last.reco.isHit = true)
    (inOrder : missed.map Attempt.node ++ [last.node] <+: nodes) :
    Tries nodes (missed ++ [last]) where
  inOrder := by
    rw [List.map_append]
    exact inOrder
  untilHit := by
    rw [List.dropLast_concat]
    exact allMissed
  all none := by
    have miss := none last (List.mem_append_right _ List.mem_cons_self)
    rw [isHit] at miss
    cases miss

/-- What a scan over a list with the interrupts from a position on has come to, by its rounds
and by how its last pause ends. -/
structure Reports (graph : Graph) (memory : Memory) (candidates : List String)
    (interruptAt patience : Nat) (earlier : Option (String × RecoId)) (polls : List Poll)
    (ending : Ending) (scan : Scan graph memory) : Prop where
  /-- A round that sees a frame tries what may be looked for in order, up to the first hit. -/
  tries : ∀ frame attempts, Poll.seeing frame attempts ∈ polls →
    Tries (memory.toTry graph candidates) attempts
  /-- In a list of which every name is known, these are all first occurrences. -/
  tries_all : graph.Knows candidates → ∀ frame attempts, Poll.seeing frame attempts ∈ polls →
    Tries (memory.eligibleAmong graph candidates.eraseDups) attempts
  /-- Another round follows only if there was no frame, or if the list is known, something
  was tried and all missed. -/
  goOn : ∀ poll ∈ polls.dropLast, poll.GoesOn graph memory candidates
  /-- A hit is on the node of the attempt that was a hit, where it is listed first. -/
  hit_iff : ∀ position node reco, scan = .hit position node reco ↔
    position = candidates.idxOf node.node.name ∧ reco.isHit = true ∧
      ∃ poll ∈ polls, (⟨node.node, reco⟩ : Attempt) ∈ poll.attempts
  listed : ∀ position node reco, scan = .hit position node reco → node.node.name ∈ candidates
  /-- The first unknown name is reported when a round comes to it without a hit. -/
  unknown_iff : ∀ name, scan = .unknown name ↔ graph.unknown? candidates = some name ∧
    ∃ frame attempts, Poll.seeing frame attempts ∈ polls ∧ AllMissed attempts
  stopped_iff : scan = .stopped ↔ ending = .halted
  crashed_iff : scan = .crashed ↔ Poll.crashed ∈ polls
  /-- A scan gives up when the time is up, or when a round sees a frame and has nothing to
  try. -/
  gaveUp_iff : scan = .exhausted ∨ (∃ last, scan = .missed last) ↔
    ending = .late ∨ graph.Knows candidates ∧ memory.toTry graph candidates = [] ∧
      ∃ frame attempts, Poll.seeing frame attempts ∈ polls
  exhausted : scan = .exhausted → interruptAt = 0
  /-- A miss is reported with the last attempt of all. -/
  missed : ∀ last, scan = .missed last →
    interruptAt ≠ 0 ∧ last = lastOf (polls.flatMap Poll.attempts) earlier
  /-- If nothing may be looked for, the first round that sees a frame is the last one. -/
  nothing : memory.toTry graph candidates = [] → graph.Knows candidates →
    ∀ frame attempts, Poll.seeing frame attempts ∈ polls →
      attempts = [] ∧ polls.getLast? = some (.seeing frame attempts)
  late : ending = .late → polls ≠ []
  unfinished : scan = .unfinished → polls.length = patience

namespace Poll.GoesOn

variable {graph : Graph} {memory : Memory} {candidates : List String} {poll : Poll}

theorem missed (goesOn : poll.GoesOn graph memory candidates) : AllMissed poll.attempts := by
  cases goesOn with
  | blind => exact List.forall_mem_nil _
  | seeing _ _ missed => exact missed

theorem not_crashed (goesOn : poll.GoesOn graph memory candidates) : poll ≠ .crashed := by
  cases goesOn <;> exact nofun

end Poll.GoesOn

/-- The attempt that a scan reports as a hit. -/
def Scan.found {graph : Graph} {memory : Memory} : Scan graph memory → List Attempt
  | .hit _ node reco => [⟨node.node, reco⟩]
  | _ => []

theorem Scan.GaveUp.either {graph : Graph} {memory : Memory} {interruptAt : Nat}
    {last : Option (String × RecoId)} {scan : Scan graph memory}
    (gaveUp : scan.GaveUp interruptAt last) : scan = .exhausted ∨ ∃ last, scan = .missed last := by
  cases gaveUp with
  | exhausted => exact .inl rfl
  | missed => exact .inr ⟨last, rfl⟩

theorem Scan.GaveUp.found {graph : Graph} {memory : Memory} {interruptAt : Nat}
    {last : Option (String × RecoId)} {scan : Scan graph memory}
    (gaveUp : scan.GaveUp interruptAt last) : scan.found = [] := by
  cases gaveUp <;> rfl

theorem Closes.attempts {graph : Graph} {memory : Memory} {candidates : List String}
    {interruptAt : Nat} {last : Option (String × RecoId)} {tail : List Poll} {ending : Ending}
    {scan : Scan graph memory}
    (closes : Closes graph memory candidates interruptAt last tail ending scan) :
    ∃ missed, AllMissed missed ∧ tail.flatMap Poll.attempts = missed ++ scan.found := by
  cases closes with
  | unfinished | stopped | crashed => exact ⟨[], List.forall_mem_nil _, rfl⟩
  | late gaveUp | nothing _ _ _ gaveUp =>
    refine ⟨[], List.forall_mem_nil _, ?_⟩
    rw [gaveUp.found]
    rfl
  | hit _ node reco allMissed => exact ⟨_, allMissed, List.flatMap_singleton ..⟩
  | unknown _ missed => exact ⟨_, missed, rfl⟩

namespace Concludes

variable {graph : Graph} {memory : Memory} {candidates : List String} {interruptAt patience : Nat}
  {earlier : Option (String × RecoId)} {polls : List Poll} {ending : Ending}
  {scan : Scan graph memory}
  (concludes : Concludes graph memory candidates interruptAt patience earlier polls ending scan)
include concludes

theorem tries (frame : Frame) (attempts : List Attempt)
    (member : Poll.seeing frame attempts ∈ polls) :
    Tries (memory.toTry graph candidates) attempts := by
  obtain ⟨goOn, closes, -, -⟩ := concludes
  rcases List.mem_append.mp member with early | isLast
  · cases goOn _ early with
    | seeing _ _ missed _ all => exact .of_missed missed all
  · cases closes with
    | unfinished | stopped | late | crashed => simp at isLast
    | hit _ node reco allMissed isHit inOrder =>
      simp only [List.mem_singleton, Poll.seeing.injEq] at isLast
      rw [isLast.2]
      exact .of_hit allMissed isHit inOrder
    | unknown _ missed _ all =>
      simp only [List.mem_singleton, Poll.seeing.injEq] at isLast
      rw [isLast.2]
      exact .of_missed missed all
    | nothing _ _ none =>
      simp only [List.mem_singleton, Poll.seeing.injEq] at isLast
      rw [isLast.2]
      exact .of_missed (List.forall_mem_nil _) none.symm

theorem goOn : ∀ poll ∈ polls.dropLast, poll.GoesOn graph memory candidates := by
  obtain ⟨goOn, closes, -, -⟩ := concludes
  intro poll member
  apply goOn
  cases closes with
  | unfinished | stopped | late =>
    rw [List.append_nil] at member
    exact List.dropLast_subset _ member
  | crashed | hit | unknown | nothing =>
    rw [List.dropLast_concat] at member
    exact member

/-- All attempts missed but the one that the scan reports. -/
theorem attempts : ∃ missed, AllMissed missed ∧
    polls.flatMap Poll.attempts = missed ++ scan.found := by
  obtain ⟨goOn, closes, -, -⟩ := concludes
  rename_i rounds tail
  have early : AllMissed (rounds.flatMap Poll.attempts) := by
    intro attempt member
    obtain ⟨poll, isRound, member⟩ := List.mem_flatMap.mp member
    exact (goOn poll isRound).missed attempt member
  obtain ⟨missed, allMissed, split⟩ := closes.attempts
  refine ⟨rounds.flatMap Poll.attempts ++ missed, ?_, ?_⟩
  · exact List.forall_mem_append.mpr ⟨early, allMissed⟩
  · rw [List.flatMap_append, split, List.append_assoc]

theorem hit {position : Nat} {node : Memory.Eligible graph memory} {reco : RecoResult}
    (isHit : scan = .hit position node reco) : position = candidates.idxOf node.node.name ∧
      reco.isHit = true ∧ node.node ∈ memory.toTry graph candidates := by
  obtain ⟨-, closes, -, -⟩ := concludes
  cases closes with
  | hit _ node reco _ isHit' inOrder =>
    cases isHit
    exact ⟨rfl, isHit', inOrder.subset (List.mem_append_right _ List.mem_cons_self)⟩
  | late gaveUp | nothing _ _ _ gaveUp => cases gaveUp <;> cases isHit
  | _ => cases isHit

/-- What a scan reports as a hit was one. -/
theorem found_hit (attempt : Attempt) (member : attempt ∈ scan.found) :
    attempt.reco.isHit = true := by
  match scan with
  | .hit position node reco =>
    cases List.mem_singleton.mp member
    exact (concludes.hit rfl).2.1
  | .missed _ | .exhausted | .stopped | .unknown _ | .crashed | .unfinished => cases member

/-- Only what may be looked for is tried. -/
theorem tried (attempt : Attempt) (member : attempt ∈ polls.flatMap Poll.attempts) :
    attempt.node ∈ memory.toTry graph candidates := by
  obtain ⟨poll, isRound, among⟩ := List.mem_flatMap.mp member
  cases poll with
  | crashed | blind => cases among
  | seeing frame attempts =>
    have inOrder := (concludes.tries frame attempts isRound).inOrder
    exact inOrder.subset (List.mem_map_of_mem among)

theorem hit_iff (position : Nat) (node : Memory.Eligible graph memory) (reco : RecoResult) :
    scan = .hit position node reco ↔
      position = candidates.idxOf node.node.name ∧ reco.isHit = true ∧
        ∃ poll ∈ polls, (⟨node.node, reco⟩ : Attempt) ∈ poll.attempts := by
  obtain ⟨missed, allMissed, split⟩ := concludes.attempts
  constructor
  · intro isHit
    obtain ⟨first, hits, -⟩ := concludes.hit isHit
    refine ⟨first, hits, List.mem_flatMap.mp ?_⟩
    rw [split, isHit]
    exact List.mem_append_right _ List.mem_cons_self
  · rintro ⟨rfl, hits, among⟩
    have member := List.mem_flatMap.mpr among
    rw [split] at member
    rcases List.mem_append.mp member with isMissed | isFound
    · exact nomatch hits.symm.trans (allMissed _ isMissed)
    · match scan with
      | .hit position node' reco' =>
        obtain ⟨rfl, -, -⟩ := concludes.hit rfl
        obtain ⟨same, rfl⟩ := Attempt.mk.inj (List.mem_singleton.mp isFound)
        rw [Memory.Eligible.eq_of_node same]
      | .missed _ | .exhausted | .stopped | .unknown _ | .crashed | .unfinished => cases isFound

theorem listed (position : Nat) (node : Memory.Eligible graph memory) (reco : RecoResult)
    (isHit : scan = .hit position node reco) : node.node.name ∈ candidates := by
  obtain ⟨-, -, tried⟩ := concludes.hit isHit
  have known := (Memory.mem_eligibleAmong tried).1
  exact List.mem_eraseDups.mp (List.takeWhile_subset _ known)

theorem unknown_iff (name : String) :
    scan = .unknown name ↔ graph.unknown? candidates = some name ∧
      ∃ frame attempts, Poll.seeing frame attempts ∈ polls ∧ AllMissed attempts := by
  obtain ⟨goOn, closes, -, -⟩ := concludes
  constructor
  · intro isUnknown
    cases closes with
    | unknown frame missed first =>
      cases isUnknown
      exact ⟨first, frame, _, List.mem_append_right _ List.mem_cons_self, missed⟩
    | late gaveUp | nothing _ _ _ gaveUp => cases gaveUp <;> cases isUnknown
    | _ => cases isUnknown
  · rintro ⟨first, frame, attempts, member, missed⟩
    have unknown : ¬graph.Knows candidates := fun knows =>
      nomatch first.symm.trans (Graph.unknown?_eq_none.mpr knows)
    rcases List.mem_append.mp member with early | isLast
    · cases goOn _ early with
      | seeing _ _ _ knows => exact absurd knows unknown
    · cases closes with
      | hit _ node reco _ isHit =>
        cases List.mem_singleton.mp isLast
        have miss := missed ⟨node.node, reco⟩ (List.mem_append_right _ List.mem_cons_self)
        exact nomatch isHit.symm.trans miss
      | unknown _ _ first' => rw [Option.some.inj (first.symm.trans first')]
      | nothing _ knows => exact absurd knows unknown
      | unfinished | stopped | late => exact absurd isLast List.not_mem_nil
      | crashed => cases List.mem_singleton.mp isLast

theorem stopped_iff : scan = .stopped ↔ ending = .halted := by
  obtain ⟨-, closes, -, -⟩ := concludes
  cases closes with
  | late gaveUp | nothing _ _ _ gaveUp => cases gaveUp <;> simp
  | _ => simp

theorem crashed_iff : scan = .crashed ↔ Poll.crashed ∈ polls := by
  obtain ⟨goOn, closes, -, -⟩ := concludes
  have early : ∀ {rounds : List Poll}, (∀ poll ∈ rounds, poll.GoesOn graph memory candidates) →
      Poll.crashed ∉ rounds := fun goOn member => (goOn _ member).not_crashed rfl
  cases closes with
  | late gaveUp | nothing _ _ _ gaveUp => cases gaveUp <;> simp [early goOn]
  | _ => simp [early goOn]

/-- If nothing may be looked for, the first round that sees a frame is the last one. -/
theorem nothing (none : memory.toTry graph candidates = []) (knows : graph.Knows candidates)
    (frame : Frame) (attempts : List Attempt) (member : Poll.seeing frame attempts ∈ polls) :
    attempts = [] ∧ polls.getLast? = some (.seeing frame attempts) ∧ scan.GaveUp interruptAt
      (lastOf (polls.flatMap Poll.attempts) earlier) := by
  obtain ⟨goOn, closes, -, -⟩ := concludes
  rcases List.mem_append.mp member with early | isLast
  · cases goOn _ early with
    | seeing _ something _ _ all =>
      rw [none, List.map_eq_nil_iff] at all
      exact absurd all something
  · cases closes with
    | nothing _ _ _ gaveUp =>
      cases List.mem_singleton.mp isLast
      refine ⟨rfl, List.getLast?_concat, ?_⟩
      simpa [Poll.attempts] using gaveUp
    | hit _ node reco _ _ inOrder =>
      rw [none, List.prefix_nil] at inOrder
      simp at inOrder
    | unknown _ _ first => exact nomatch first.symm.trans (Graph.unknown?_eq_none.mpr knows)
    | unfinished | stopped | late => exact absurd isLast List.not_mem_nil
    | crashed => cases List.mem_singleton.mp isLast

/-- A scan that gives up reports the last attempt of all. -/
theorem gaveUp (gaveUp : scan = .exhausted ∨ ∃ last, scan = .missed last) :
    scan.GaveUp interruptAt (lastOf (polls.flatMap Poll.attempts) earlier) ∧
      (ending = .late ∨ graph.Knows candidates ∧ memory.toTry graph candidates = [] ∧
        ∃ frame attempts, Poll.seeing frame attempts ∈ polls) := by
  obtain ⟨-, closes, -, -⟩ := concludes
  cases closes with
  | late gaveUp =>
    rw [List.append_nil]
    exact ⟨gaveUp, .inl rfl⟩
  | nothing frame knows none gaveUp =>
    refine ⟨by simpa [Poll.attempts] using gaveUp, .inr ⟨knows, none, frame, [], ?_⟩⟩
    exact List.mem_append_right _ List.mem_cons_self
  | _ => rcases gaveUp with same | ⟨_, same⟩ <;> cases same

theorem gaveUp_iff : scan = .exhausted ∨ (∃ last, scan = .missed last) ↔
    ending = .late ∨ graph.Knows candidates ∧ memory.toTry graph candidates = [] ∧
      ∃ frame attempts, Poll.seeing frame attempts ∈ polls := by
  constructor
  · exact fun ended => (concludes.gaveUp ended).2
  · rintro (rfl | ⟨knows, none, frame, attempts, member⟩)
    · obtain ⟨-, closes, -, -⟩ := concludes
      cases closes with
      | late gaveUp => exact gaveUp.either
    · exact (concludes.nothing none knows frame attempts member).2.2.either

/-- **What a scan has come to can be read off its rounds.** -/
theorem reports : Reports graph memory candidates interruptAt patience earlier polls ending scan where
  tries := concludes.tries
  tries_all knows frame attempts member := by
    have knowsFirsts : graph.Knows candidates.eraseDups := fun name listed =>
      knows name (List.mem_eraseDups.mp listed)
    rw [← Graph.known_eq knowsFirsts]
    exact concludes.tries frame attempts member
  goOn := concludes.goOn
  hit_iff := concludes.hit_iff
  listed := concludes.listed
  unknown_iff := concludes.unknown_iff
  stopped_iff := concludes.stopped_iff
  crashed_iff := concludes.crashed_iff
  gaveUp_iff := concludes.gaveUp_iff
  exhausted ended := by
    cases ended
    cases (concludes.gaveUp (.inl rfl)).1 with
    | exhausted interrupts => exact interrupts
  missed last ended := by
    cases ended
    cases (concludes.gaveUp (.inr ⟨last, rfl⟩)).1 with
    | missed others => exact ⟨others, rfl⟩
  nothing none knows frame attempts member :=
    let ⟨noAttempt, isLast, _⟩ := concludes.nothing none knows frame attempts member
    ⟨noAttempt, isLast⟩
  late := by
    obtain ⟨-, closes, begun, -⟩ := concludes
    intro isLate empty
    exact begun isLate (List.append_eq_nil_iff.mp empty).1
  unfinished ended := by
    obtain ⟨-, closes, -, followed⟩ := concludes
    cases ended
    cases closes with
    | unfinished =>
      rw [List.append_nil]
      exact followed rfl
    | late gaveUp | nothing _ _ _ gaveUp => cases gaveUp

end Concludes

namespace RunContext

/-- **A scan tries what may be looked for in order, once a round, and what it has come to can
be read off its rounds.** This is said of what a scan plays with its ports, and every scan that
ends has played so. -/
theorem scan_polls (context : RunContext) (setting : Setting Engine) (memory : Memory)
    (owner : Node) (candidates : List String) (interruptAt : Nat) (engine : Engine) :
    (∀ scan final,
      (context.scan memory owner candidates interruptAt).Ends setting engine scan final →
        ∃ events, (context.ported.scan memory owner candidates interruptAt).Plays context.port
          setting engine events (some scan) final) ∧
    ∀ events value final,
      (context.ported.scan memory owner candidates interruptAt).Plays context.port setting engine
          events value final →
        ∃ scan, ∃ started : Nat, ∃ rest polls ending, value = some scan ∧
          events = .call Question.now (some started) :: rest ∧
          Polls context (started + nanoseconds owner.timeout) polls ending rest ∧
          Reports context.graph memory candidates interruptAt context.patience none polls ending
            scan := by
  constructor
  · intro scan final ends
    have same := context.handled
    have handled := same.after same.now fun (time : Nat) =>
      same.scanRounds memory owner candidates interruptAt (time + nanoseconds owner.timeout)
        context.patience none
    obtain ⟨events, came, plays, rfl | ⟨-, open'⟩⟩ := handled.plays ends
    · exact ⟨events, plays⟩
    · exact open'.elim
  · intro events value final plays
    obtain ⟨(started : Nat), rest, _, rfl, begun⟩ := plays_ask rfl plays
    obtain ⟨scan, rfl, polls, ending, played, concludes⟩ := scanRounds_plays begun
    exact ⟨scan, started, rest, polls, ending, rfl, rfl, played, concludes.reports⟩

/-! ### A scan whose second round has a hit -/

/-- A node that is not enabled. -/
def asleep : Node := { fleeting with name := "B", enabled := false }

/-- A node that is waited for. -/
def awaited : Node := { fleeting with name := "C", timeout := 1 }

/-- A run that has time for two rounds. -/
def choosy : RunContext :=
  { hasty with graph := (hasty.graph.insert asleep).insert awaited, patience := 2 }

/-- The first capture fails, and then one node alone is recognized. -/
def glimpses : Surroundings outside Engine Nat where
  meanwhile := id
  answer question before := match question with
    | .capture _ => (Reply.returned (if before.2 = 0 then none else some default), before.2 + 1)
    | .recognize _ _ node =>
      (Reply.returned (if node.name = "C" then some ⟨default, .null⟩ else none), before.2)
    | question => ((standstill.answer question (before.1, ())).1, before.2)

/-- The node that is waited for is hit where it is listed. -/
theorem choosy_hits : ∃ node reco, (glimpses.carry
    (choosy.scan .empty awaited ["B", "A", "A", "C"] 4) (posted, 0)).1 = .hit 3 node reco :=
  ⟨_, _, rfl⟩

theorem choosy_polls : ∃ events node reco final,
    (choosy.scan .empty awaited ["B", "A", "A", "C"] 4).Ends glimpses.setting posted
      (.hit 3 node reco) final ∧
    (choosy.ported.scan .empty awaited ["B", "A", "A", "C"] 4).Plays choosy.port
      glimpses.setting posted events (some (.hit 3 node reco)) final ∧
    ∃ started : Nat, ∃ rest polls ending, events = .call Question.now (some started) :: rest ∧
      Polls choosy (started + 1000000) polls ending rest ∧
      Reports choosy.graph .empty ["B", "A", "A", "C"] 4 2 none polls ending
        (.hit 3 node reco) := by
  obtain ⟨node, reco, hits⟩ := choosy_hits
  have ends := glimpses.ends_carry (choosy.scan .empty awaited ["B", "A", "A", "C"] 4) (posted, 0)
  rw [hits] at ends
  obtain ⟨played, polled⟩ :=
    scan_polls choosy glimpses.setting .empty awaited ["B", "A", "A", "C"] 4 posted
  obtain ⟨events, plays⟩ := played _ _ ends
  obtain ⟨scan, started, rest, polls, ending, same, begins, rounds, reports⟩ := polled _ _ _ plays
  cases same
  exact ⟨events, node, reco, _, ends, plays, started, rest, polls, ending, begins, rounds,
    reports⟩

end RunContext

end ScreenPilot
