import ScreenPilot.Proofs.Run.Candidates
import ScreenPilot.Proofs.Run.Duplicates
import ScreenPilot.Proofs.Run.Prompt

/-!
# The rounds of a scan

What a scan plays is a sequence of rounds with pauses in between (`Polls`). A round captures
the screen and then does nothing but attempts, so a request to stop is noticed in a pause
only. Which nodes a round tries depends on the list and on what is remembered alone
(`Memory.eligibleAmong`): those that are enabled and below their limit, each where its name
stands first, up to a hit or to a name that no node has.

A scan goes on after a round that had no frame, or that tried something and missed
(`Poll.GoesOn`); the others, and the last pause, close it (`Closes`). So what came of a scan
can be read off its rounds (`scanRounds_plays`).
-/

set_option autoImplicit false

namespace ScreenPilot

open Activity Engine

/-! ## The nodes that are tried -/

/-- The names before the first one that no node has. -/
def Graph.known (graph : Graph) (names : List String) : List String :=
  names.takeWhile fun name => (graph.find? name).isSome

/-- A list of which every name is that of a node. -/
def Graph.Knows (graph : Graph) (names : List String) : Prop :=
  ∀ name ∈ names, (graph.find? name).isSome

/-- The first name that no node has. -/
def Graph.unknown? (graph : Graph) (names : List String) : Option String :=
  names.find? fun name => (graph.find? name).isNone

/-- The nodes of these names that may be looked for. -/
def Memory.eligibleAmong (memory : Memory) (graph : Graph) (names : List String) : List Node :=
  (names.filterMap graph.find?).filter fun node =>
    node.enabled && memory.hitsOf node.name < node.maxHit

namespace Graph

variable {graph : Graph} {name : String} {names : List String} {node : Node}

theorem known_eq (knows : graph.Knows names) : graph.known names = names := by
  induction names with
  | nil => rfl
  | cons name names ih =>
    obtain ⟨isNode, later⟩ := List.forall_mem_cons.mp knows
    rw [known, List.takeWhile_cons, if_pos isNode]
    exact congrArg (name :: ·) (ih later)

theorem known_cons (found : graph.find? name = some node) :
    graph.known (name :: names) = name :: graph.known names := by
  simp [known, found]

theorem known_cons_of_none (absent : graph.find? name = none) :
    graph.known (name :: names) = [] := by
  simp [known, absent]

theorem unknown?_cons (found : graph.find? name = some node) :
    graph.unknown? (name :: names) = graph.unknown? names := by
  simp [unknown?, found]

theorem unknown?_eq_none : graph.unknown? names = none ↔ graph.Knows names := by
  simp [unknown?, Knows, Option.isSome_iff_ne_none]

end Graph

namespace Memory

variable {graph : Graph} {memory : Memory} {name : String} {names : List String} {node : Node}

/-- A node that may be looked for comes first. -/
theorem eligibleAmong_cons (found : graph.find? name = some node)
    (able : node.enabled = true ∧ memory.hitsOf node.name < node.maxHit) :
    memory.eligibleAmong graph (name :: names) = node :: memory.eligibleAmong graph names := by
  simp [eligibleAmong, found, able]

/-- A node that may not be looked for is left out. -/
theorem eligibleAmong_cons_of_unable (found : graph.find? name = some node)
    (unable : ¬(node.enabled = true ∧ memory.hitsOf node.name < node.maxHit)) :
    memory.eligibleAmong graph (name :: names) = memory.eligibleAmong graph names := by
  rw [eligibleAmong, List.filterMap_cons_some found, List.filter_cons_of_neg (by simpa using unable)]
  rfl

theorem Eligible.eq_of_node {first second : Eligible graph memory}
    (same : first.node = second.node) : first = second := by
  cases first
  cases second
  cases same
  rfl

/-- What may be looked for is in the graph, enabled and below its limit. -/
theorem mem_eligibleAmong (member : node ∈ memory.eligibleAmong graph names) :
    node.name ∈ names ∧ graph.find? node.name = some node ∧ node.enabled = true ∧
      memory.hitsOf node.name < node.maxHit := by
  simp only [eligibleAmong, List.mem_filter, List.mem_filterMap, Bool.and_eq_true,
    decide_eq_true_eq] at member
  obtain ⟨⟨name, listed, found⟩, enabled, below⟩ := member
  have named : node.name = name := graph.named name node found
  rw [named] at below ⊢
  exact ⟨listed, found, enabled, below⟩

end Memory

/-- The first occurrence that fits is the first one that fits. -/
theorem find?_eraseDups {α : Type} [BEq α] [LawfulBEq α] (fits : α → Bool) (list : List α) :
    list.eraseDups.find? fits = list.find? fits := by
  match list with
  | [] => rfl
  | first :: rest =>
    rw [List.eraseDups_cons, List.find?_cons, List.find?_cons]
    cases isFirst : fits first with
    | true => rfl
    | false =>
      have shorter := List.length_filter_le (fun item => !item == first) rest
      rw [find?_eraseDups fits (rest.filter fun item => !item == first), List.find?_filter]
      refine congrArg (rest.find? ·) (funext fun item => ?_)
      by_cases same : item = first
      · simp [same, isFirst]
      · simp [same]
termination_by list.length
decreasing_by exact Nat.lt_succ_of_le shorter

/-! ## Attempts -/

/-- A node that was tried, and what is on record of it. -/
structure Attempt where
  node : Node
  reco : RecoResult

/-- No attempt was a hit. -/
def AllMissed (attempts : List Attempt) : Prop := ∀ attempt ∈ attempts, attempt.reco.isHit = false

/-- The last attempt, or the one before if there is none. -/
def lastOf (attempts : List Attempt) (earlier : Option (String × RecoId)) :
    Option (String × RecoId) :=
  (attempts.getLast?.map fun attempt => (attempt.node.name, attempt.reco.id)).or earlier

theorem lastOf_cons (attempt : Attempt) (attempts : List Attempt)
    (earlier : Option (String × RecoId)) :
    lastOf (attempt :: attempts) earlier =
      lastOf attempts (some (attempt.node.name, attempt.reco.id)) := by
  cases attempts with
  | nil => rfl
  | cons second rest => simp [lastOf, List.getLast?_cons]

theorem lastOf_append (attempts rest : List Attempt) (earlier : Option (String × RecoId)) :
    lastOf (attempts ++ rest) earlier = lastOf rest (lastOf attempts earlier) := by
  induction attempts generalizing earlier with
  | nil => rfl
  | cons attempt attempts ih => rw [List.cons_append, lastOf_cons, lastOf_cons, ih]

/-- What is done in an attempt: its identity is drawn and announced, the recognizer is called,
and the record is cached and announced. -/
inductive Attempt.Does (context : RunContext) (frame : Frame) :
    Attempt → List RunEvent → Prop where
  | intro {attempt : Attempt} (reply : Reply (Option Recognition))
      (drawn announced cached reported : Engine)
      (records : attempt.reco =
        RunContext.recoResult (drawn.ids.draw .reco).1 attempt.node (reply.getD none)) :
      Does context frame attempt
        [.step drawn { drawn with ids := (drawn.ids.draw .reco).2 },
          .step announced { announced with
            notifier := announced.notifier.emit (context.event attempt.node .recognition .starting
              .invalid attempt.reco.id .invalid) },
          .call (Question.recognize 0 frame attempt.node) (some reply),
          .step cached { cached with cache := cached.cache.putReco attempt.reco },
          .step reported { reported with
            notifier := reported.notifier.emit (context.event attempt.node .recognition
              (.ofSuccess attempt.reco.isHit) .invalid attempt.reco.id .invalid) }]

/-- What is done in attempts, one after the other. -/
inductive Attempts (context : RunContext) (frame : Frame) :
    List Attempt → List RunEvent → Prop where
  | nil : Attempts context frame [] []
  | cons {attempt : Attempt} {attempts : List Attempt} {events rest : List RunEvent}
      (does : attempt.Does context frame events) (later : Attempts context frame attempts rest) :
      Attempts context frame (attempt :: attempts) (events ++ rest)

namespace RunContext

variable {context : RunContext} {setting : Setting Engine} {α : Type} {engine final : Engine}
  {events : List RunEvent} {value : Option α}

/-- The ports leave no question open, unless it is to wait for a still screen. -/
theorem port_answers {question : Question} (answers : question.isWait = false) :
    ¬(context.port question).Ends setting engine none final := by
  have closed : ∀ {β γ : Type} (activity : Acting β) (view : β → γ),
      ¬((fun value => some (view value)) <$> activity).Ends setting engine none final := by
    intro β γ activity view ends
    obtain ⟨_, _, -, last⟩ := ends_bind.mp ends
    cases last
  cases question with
  | awaitStill => cases answers
  | recognize _ frame node => exact closed _ Reply.returned
  | _ => exact closed _ id

/-- An activity that is never left open comes first, and then what follows its value. -/
theorem plays_then {β : Type} {first : Acting β} {next : β → Acting α}
    {handlers : Handlers outside Engine} {holds : β → List RunEvent → Prop}
    (closed : ∀ {events result middle},
      first.Plays handlers setting engine events result middle →
        ∃ value, result = some value ∧ holds value events)
    (plays : (first >>= next).Plays handlers setting engine events value final) :
    ∃ result before after middle, events = before ++ after ∧ holds result before ∧
      (next result).Plays handlers setting middle after value final := by
  rcases plays_bind plays with ⟨before, after, result, middle, rfl, firsts, nexts⟩ | ⟨-, firsts⟩
  · obtain ⟨_, same, held⟩ := closed firsts
    cases same
    exact ⟨result, before, after, middle, rfl, held, nexts⟩
  · obtain ⟨_, none, -⟩ := closed firsts
    cases none

/-- A question that is answered is the first thing played. -/
theorem plays_ask {question : Question} {next : Answer question → Acting α}
    (answers : question.isWait = false)
    (plays : (Activity.ask question next : Acting α).Plays context.port setting engine events value
      final) :
    ∃ answer rest middle, events = .call question (some answer) :: rest ∧
      (next answer).Plays context.port setting middle rest value final := by
  cases plays with
  | call ends rest => exact ⟨_, _, _, rfl, rest⟩
  | left ends => exact absurd ends (port_answers answers)

/-- An attempt comes first, and then what follows its result. -/
theorem plays_recognize {frame : Frame} {node : Node} {next : RecoResult → Acting α}
    (plays : (context.ported.recognize frame node >>= next).Plays context.port setting engine
      events value final) :
    ∃ reco tried rest middle, events = tried ++ rest ∧
      Attempt.Does context frame ⟨node, reco⟩ tried ∧
      (next reco).Plays context.port setting middle rest value final := by
  cases plays with
  | step _ _ drawn => cases drawn with
    | step _ _ announced =>
      obtain ⟨reply, _, _, rfl, called⟩ := plays_ask rfl announced
      cases called with
      | step _ _ cached => cases cached with
        | step _ _ plays => exact ⟨_, _, _, _, rfl, .intro reply _ _ _ _ rfl, plays⟩

end RunContext

/-! ## Rounds -/

/-- What a round over these names tells of its attempts: they are on the nodes that may be
looked for, in the order of the names, up to the first hit or unknown name. -/
def Round.Tells {graph : Graph} {memory : Memory} (place : String → Nat) (names : List String)
    (tried : Bool) (earlier : Option (String × RecoId)) (attempts : List Attempt) :
    Round graph memory → Prop
  | .hit position node reco => ∃ missed, attempts = missed ++ [⟨node.node, reco⟩] ∧
      AllMissed missed ∧ reco.isHit = true ∧ position = place node.node.name ∧
      attempts.map Attempt.node <+: memory.eligibleAmong graph (graph.known names)
  | .unknown name => AllMissed attempts ∧ graph.unknown? names = some name ∧
      attempts.map Attempt.node = memory.eligibleAmong graph (graph.known names)
  | .missed tried' last => AllMissed attempts ∧ graph.Knows names ∧
      attempts.map Attempt.node = memory.eligibleAmong graph (graph.known names) ∧
      tried' = (tried || !attempts.isEmpty) ∧ last = lastOf attempts earlier

namespace Round.Tells

variable {graph : Graph} {memory : Memory} {place : String → Nat} {name : String}
  {names : List String} {tried : Bool} {earlier : Option (String × RecoId)}
  {attempts : List Attempt} {round : Round graph memory} {node : Node}

/-- A name that is skipped may come first. -/
theorem skip (found : graph.find? name = some node)
    (unable : ¬(node.enabled = true ∧ memory.hitsOf node.name < node.maxHit))
    (tells : round.Tells place names tried earlier attempts) :
    round.Tells place (name :: names) tried earlier attempts := by
  have same : memory.eligibleAmong graph (graph.known (name :: names)) =
      memory.eligibleAmong graph (graph.known names) := by
    rw [Graph.known_cons found, Memory.eligibleAmong_cons_of_unable found unable]
  cases round with
  | hit position hit reco =>
    obtain ⟨missed, split, allMissed, isHit, here, inOrder⟩ := tells
    exact ⟨missed, split, allMissed, isHit, here, same ▸ inOrder⟩
  | unknown other =>
    obtain ⟨allMissed, unknown, all⟩ := tells
    exact ⟨allMissed, (Graph.unknown?_cons found).trans unknown, all.trans same.symm⟩
  | missed tried' last =>
    obtain ⟨allMissed, knows, all, rest⟩ := tells
    refine ⟨allMissed, ?_, all.trans same.symm, rest⟩
    exact List.forall_mem_cons.mpr ⟨by rw [found]; rfl, knows⟩

/-- An attempt that missed may come first. -/
theorem miss (found : graph.find? name = some node)
    (able : node.enabled = true ∧ memory.hitsOf node.name < node.maxHit) {reco : RecoResult}
    (missed : reco.isHit = false)
    (tells : round.Tells place names true (some (node.name, reco.id)) attempts) :
    round.Tells place (name :: names) tried earlier (⟨node, reco⟩ :: attempts) := by
  have more : memory.eligibleAmong graph (graph.known (name :: names)) =
      node :: memory.eligibleAmong graph (graph.known names) := by
    rw [Graph.known_cons found, Memory.eligibleAmong_cons found able]
  have allMiss : ∀ {attempts}, AllMissed attempts → AllMissed (⟨node, reco⟩ :: attempts) :=
    fun allMissed => List.forall_mem_cons.mpr ⟨missed, allMissed⟩
  cases round with
  | hit position hit reco' =>
    obtain ⟨front, rfl, allMissed, isHit, here, inOrder⟩ := tells
    refine ⟨⟨node, reco⟩ :: front, rfl, allMiss allMissed, isHit, here, ?_⟩
    rw [more]
    exact List.prefix_cons_iff.mpr (.inr ⟨_, rfl, inOrder⟩)
  | unknown other =>
    obtain ⟨allMissed, unknown, all⟩ := tells
    refine ⟨allMiss allMissed, (Graph.unknown?_cons found).trans unknown, ?_⟩
    rw [more, List.map_cons, all]
  | missed tried' last =>
    obtain ⟨allMissed, knows, all, rfl, rfl⟩ := tells
    refine ⟨allMiss allMissed, ?_, ?_, ?_, ?_⟩
    · exact List.forall_mem_cons.mpr ⟨by rw [found]; rfl, knows⟩
    · rw [more, List.map_cons, all]
    · simp
    · exact (lastOf_cons ⟨node, reco⟩ attempts earlier).symm

end Round.Tells

namespace RunContext

variable {context : RunContext} {setting : Setting Engine} {engine final : Engine}
  {events : List RunEvent} {memory : Memory}

/-- **A round over names that differ tries those that may be looked for, in order.** -/
theorem tryEach_plays {frame : Frame} {place : String → Nat} {tried : Bool}
    {earlier : Option (String × RecoId)} {names : List String}
    {value : Option (Round context.graph memory)}
    (plays : (context.ported.tryEach memory frame place tried earlier names).Plays context.port
      setting engine events value final) :
    ∃ round, value = some round ∧ ∃ attempts, Attempts context frame attempts events ∧
      round.Tells place names tried earlier attempts := by
  induction names generalizing tried earlier engine events with
  | nil =>
    obtain ⟨rfl, rfl, -⟩ := plays_done plays
    refine ⟨_, rfl, [], .nil, ?_, ?_, rfl, ?_, rfl⟩
    · exact List.forall_mem_nil _
    · exact List.forall_mem_nil _
    · simp
  | cons name names ih =>
    cases found : context.graph.find? name with
    | none =>
      rw [context.ported.tryEach_unknown found] at plays
      obtain ⟨rfl, rfl, -⟩ := plays_done plays
      refine ⟨_, rfl, [], .nil, List.forall_mem_nil _, ?_, ?_⟩
      · simp [Graph.unknown?, found]
      · rw [Graph.known_cons_of_none found]
        rfl
    | some node =>
      have named : node.name = name := context.graph.named name node found
      rw [context.ported.tryEach_known found] at plays
      by_cases able : node.enabled = true ∧ memory.hitsOf node.name < node.maxHit
      · simp only [Memory.eligible?, dif_pos able] at plays
        obtain ⟨reco, events, rest, middle, rfl, does, plays⟩ := plays_recognize plays
        cases isHit : reco.isHit with
        | true =>
          rw [if_pos isHit] at plays
          obtain ⟨rfl, rfl, -⟩ := plays_done plays
          refine ⟨_, rfl, [⟨node, reco⟩], .cons does .nil, [], rfl, List.forall_mem_nil _, isHit,
            ?_, ?_⟩
          · rw [named]
          · rw [Graph.known_cons found, Memory.eligibleAmong_cons found able]
            simp
        | false =>
          rw [if_neg (by rw [isHit]; exact Bool.false_ne_true)] at plays
          obtain ⟨round, rfl, attempts, later, tells⟩ := ih plays
          exact ⟨round, rfl, _, .cons does later, tells.miss found able isHit⟩
      · simp only [Memory.eligible?, dif_neg able] at plays
        obtain ⟨round, rfl, attempts, tried, tells⟩ := ih plays
        exact ⟨round, rfl, attempts, tried, tells.skip found able⟩

end RunContext

/-- What a round sees and tries. -/
inductive Poll where
  /-- The capture of the screen crashed. -/
  | crashed
  /-- There was no frame. -/
  | blind
  | seeing (frame : Frame) (attempts : List Attempt)

namespace Poll

def attempts : Poll → List Attempt
  | .seeing _ attempts => attempts
  | _ => []

/-- What is done in a round: the screen is captured, and with a frame nodes are tried. -/
inductive Does (context : RunContext) : Poll → List RunEvent → Prop where
  | crashed : Does context .crashed
      [.call (Question.capture context.controller) (some Reply.crashed)]
  | blind (counted : Engine) : Does context .blind
      [.call (Question.capture context.controller) (some (Reply.returned none)),
        .step counted { counted with stats := counted.stats.countCapture false }]
  | seeing {frame : Frame} {attempts : List Attempt} {events : List RunEvent} (counted : Engine)
      (tries : Attempts context frame attempts events) : Does context (.seeing frame attempts)
      (.call (Question.capture context.controller) (some (Reply.returned (some frame))) ::
        .step counted { counted with stats := counted.stats.countCapture true } :: events)

end Poll

/-- How the last pause of a scan ends. -/
inductive Ending where
  | calm
  /-- A request to stop was noticed. -/
  | halted
  /-- The time was up. -/
  | late
deriving DecidableEq

/-- What is done in a pause: there are looks for a request to stop, of which at most the last
one finds one, and the clock and rests are asked for. -/
inductive Pause (task : TaskId) (deadline : Nat) : Ending → List RunEvent → Prop where
  | calm : Pause task deadline .calm []
  | halted (found : Engine) (asked : found.stopped.contains task = true) :
      Pause task deadline .halted [.step found found]
  | late (time : Nat) (up : deadline ≤ time) :
      Pause task deadline .late [.call Question.now (some time)]
  | look {ending : Ending} {events : List RunEvent} (found : Engine)
      (calm : found.stopped.contains task = false) (rest : Pause task deadline ending events) :
      Pause task deadline ending (.step found found :: events)
  | now {ending : Ending} {events : List RunEvent} (time : Nat)
      (rest : Pause task deadline ending events) :
      Pause task deadline ending (.call Question.now (some time) :: events)
  | rest {ending : Ending} {events : List RunEvent} (poll : UInt64) (duration : Nat)
      (rest : Pause task deadline ending events) :
      Pause task deadline ending (.call (Question.rest poll duration) (some ()) :: events)

/-- A pause may go on. -/
theorem Pause.append {task : TaskId} {deadline : Nat} {ending : Ending}
    {events rest : List RunEvent} (pause : Pause task deadline .calm events)
    (more : Pause task deadline ending rest) : Pause task deadline ending (events ++ rest) := by
  generalize isCalm : Ending.calm = first at pause
  induction pause with
  | calm => exact more
  | halted | late => cases isCalm
  | look found calm _ ih => exact .look found calm (ih isCalm)
  | now time _ ih => exact .now time (ih isCalm)
  | rest poll duration _ ih => exact .rest poll duration (ih isCalm)

/-- What is done in rounds, with a pause before each of them and one after the last. A round
begins with a look that finds no request to stop, and with the time. -/
inductive Polls (context : RunContext) (deadline : Nat) :
    List Poll → Ending → List RunEvent → Prop where
  | last {ending : Ending} {events : List RunEvent}
      (pause : Pause context.task deadline ending events) :
      Polls context deadline [] ending events
  | poll {poll : Poll} {polls : List Poll} {ending : Ending} {before during after : List RunEvent}
      (pause : Pause context.task deadline .calm before) (found : Engine)
      (calm : found.stopped.contains context.task = false) (start : Nat)
      (does : poll.Does context during) (later : Polls context deadline polls ending after) :
      Polls context deadline (poll :: polls) ending
        (before ++ .step found found :: .call Question.now (some start) :: during ++ after)

/-- A pause may come first. -/
theorem Polls.after {context : RunContext} {deadline : Nat} {polls : List Poll} {ending : Ending}
    {events rest : List RunEvent} (pause : Pause context.task deadline .calm events)
    (later : Polls context deadline polls ending rest) :
    Polls context deadline polls ending (events ++ rest) := by
  cases later with
  | last more => exact .last (pause.append more)
  | poll more found calm start does later =>
    simp only [← List.append_assoc]
    exact .poll (pause.append more) found calm start does later

/-! ## What came of a scan -/

section Concludes

variable (graph : Graph) (memory : Memory) (candidates : List String) (interruptAt : Nat)

/-- The nodes that a round tries if it has no hit. -/
abbrev Memory.toTry : List Node := memory.eligibleAmong graph (graph.known candidates.eraseDups)

/-- A round after which a scan goes on. -/
inductive Poll.GoesOn : Poll → Prop where
  | blind : GoesOn .blind
  | seeing (frame : Frame) {attempts : List Attempt} (something : attempts ≠ [])
      (missed : AllMissed attempts) (knows : graph.Knows candidates)
      (all : attempts.map Attempt.node = memory.toTry graph candidates) :
      GoesOn (.seeing frame attempts)

/-- A scan gave up: all candidates are interrupts, or the last attempt is reported. -/
inductive Scan.GaveUp {graph : Graph} {memory : Memory} (interruptAt : Nat)
    (last : Option (String × RecoId)) : Scan graph memory → Prop where
  | exhausted (interrupts : interruptAt = 0) : GaveUp interruptAt last .exhausted
  | missed (others : interruptAt ≠ 0) : GaveUp interruptAt last (.missed last)

/-- How a scan is over: in a pause, or with a last round. The rounds before have left a last
attempt. -/
inductive Closes (last : Option (String × RecoId)) :
    List Poll → Ending → Scan graph memory → Prop where
  | unfinished : Closes last [] .calm .unfinished
  | stopped : Closes last [] .halted .stopped
  | late {scan : Scan graph memory} (gaveUp : scan.GaveUp interruptAt last) :
      Closes last [] .late scan
  | crashed : Closes last [.crashed] .calm .crashed
  | hit (frame : Frame) {missed : List Attempt} (node : Memory.Eligible graph memory)
      (reco : RecoResult) (allMissed : AllMissed missed) (isHit : reco.isHit = true)
      (inOrder : missed.map Attempt.node ++ [node.node] <+: memory.toTry graph candidates) :
      Closes last [.seeing frame (missed ++ [⟨node.node, reco⟩])] .calm
        (.hit (candidates.idxOf node.node.name) node reco)
  | unknown (frame : Frame) {attempts : List Attempt} {name : String}
      (missed : AllMissed attempts) (first : graph.unknown? candidates = some name)
      (all : attempts.map Attempt.node = memory.toTry graph candidates) :
      Closes last [.seeing frame attempts] .calm (.unknown name)
  | nothing (frame : Frame) {scan : Scan graph memory} (knows : graph.Knows candidates)
      (none : memory.toTry graph candidates = []) (gaveUp : scan.GaveUp interruptAt last) :
      Closes last [.seeing frame []] .calm scan

/-- After these rounds and this last pause, a scan that is followed for so many rounds has
come to this. -/
inductive Concludes (patience : Nat) (earlier : Option (String × RecoId)) :
    List Poll → Ending → Scan graph memory → Prop where
  | intro {rounds tail : List Poll} {ending : Ending} {scan : Scan graph memory}
      (goOn : ∀ poll ∈ rounds, poll.GoesOn graph memory candidates)
      (closes : Closes graph memory candidates interruptAt
        (lastOf (rounds.flatMap Poll.attempts) earlier) tail ending scan)
      (begun : ending = .late → rounds ≠ [])
      (followed : scan = .unfinished → rounds.length = patience) :
      Concludes patience earlier (rounds ++ tail) ending scan

variable {graph memory candidates interruptAt}

theorem Scan.GaveUp.closed {last : Option (String × RecoId)} {scan : Scan graph memory}
    (gaveUp : scan.GaveUp interruptAt last) : scan ≠ .unfinished := by
  cases gaveUp <;> exact nofun

/-- A scan that is over with its first round. -/
theorem Closes.concludes {patience : Nat} {earlier : Option (String × RecoId)}
    {polls : List Poll} {ending : Ending} {scan : Scan graph memory}
    (closes : Closes graph memory candidates interruptAt earlier polls ending scan)
    (early : ending ≠ .late) (followed : scan = .unfinished → 0 = patience) :
    Concludes graph memory candidates interruptAt patience earlier polls ending scan :=
  .intro (List.forall_mem_nil _) closes (fun late => absurd late early) followed

/-- A scan that is over with the pause after its first round. -/
theorem Closes.concludes_after {patience : Nat} {earlier : Option (String × RecoId)}
    {poll : Poll} {ending : Ending} {scan : Scan graph memory}
    (closes : Closes graph memory candidates interruptAt (lastOf poll.attempts earlier) [] ending
      scan)
    (goesOn : poll.GoesOn graph memory candidates) (closed : scan ≠ .unfinished) :
    Concludes graph memory candidates interruptAt patience earlier [poll] ending scan := by
  show Concludes graph memory candidates interruptAt patience earlier ([poll] ++ []) ending scan
  refine .intro ?_ ?_ (fun _ => List.cons_ne_nil _ _) fun unfinished => absurd unfinished closed
  · exact List.forall_mem_singleton.mpr goesOn
  · simpa using closes

/-- A round may come first with which the scan goes on. -/
theorem Concludes.more {patience : Nat} {earlier : Option (String × RecoId)} {poll : Poll}
    {polls : List Poll} {ending : Ending} {scan : Scan graph memory}
    (goesOn : poll.GoesOn graph memory candidates)
    (later : Concludes graph memory candidates interruptAt patience
      (lastOf poll.attempts earlier) polls ending scan) :
    Concludes graph memory candidates interruptAt (patience + 1) earlier (poll :: polls) ending
      scan := by
  obtain ⟨goOn, closes, begun, followed⟩ := later
  rename_i rounds tail
  refine .intro ?_ ?_ (fun _ => List.cons_ne_nil _ _) ?_
  · exact List.forall_mem_cons.mpr ⟨goesOn, goOn⟩
  · rw [List.flatMap_cons, lastOf_append]
    exact closes
  · intro unfinished
    rw [List.length_cons, followed unfinished]

end Concludes

namespace RunContext

variable {context : RunContext} {setting : Setting Engine} {α : Type} {engine final : Engine}
  {events : List RunEvent} {value : Option α} {memory : Memory}

/-- A look comes first, and then what follows what it finds. -/
theorem plays_look {next : Bool → Acting α}
    (plays : (isStopped context.signal >>= next).Plays context.port setting engine events value
      final) :
    ∃ found asked rest, events = .step found found :: rest ∧
      found.stopped.contains context.task = asked ∧
      (next asked).Plays context.port setting found rest value final := by
  obtain ⟨found, rest, rfl, -, plays⟩ := plays_looks plays
  exact ⟨found, _, rest, rfl, rfl, plays⟩

/-- A sleep is a pause, which is over early if a request to stop is noticed. -/
theorem sleep_plays {duration deadline : Nat} {value : Option Bool}
    (plays : (sleep context.signal duration).Plays context.port setting engine events value final) :
    ∃ goesOn, value = some goesOn ∧
      Pause context.task deadline (if goesOn then .calm else .halted) events := by
  obtain ⟨found, asked, rest, rfl, isAsked, plays⟩ := plays_look plays
  cases asked with
  | true =>
    obtain ⟨rfl, rfl, -⟩ := plays_done plays
    exact ⟨false, rfl, .halted found isAsked⟩
  | false =>
    rw [if_neg Bool.false_ne_true] at plays
    by_cases nothing : duration = 0
    · rw [if_pos nothing] at plays
      obtain ⟨rfl, rfl, -⟩ := plays_done plays
      exact ⟨true, rfl, .look found isAsked .calm⟩
    · rw [if_neg nothing] at plays
      obtain ⟨_, _, _, rfl, rested⟩ := plays_ask rfl plays
      obtain ⟨woken, asked, _, rfl, wasAsked, woke⟩ := plays_look rested
      obtain ⟨rfl, rfl, -⟩ := plays_done woke
      cases asked with
      | true => exact ⟨false, rfl, .look found isAsked (.rest _ _ (.halted woken wasAsked))⟩
      | false => exact ⟨true, rfl, .look found isAsked (.rest _ _ (.look woken wasAsked .calm))⟩

/-- How the pause after a round ends. -/
def pauseEnding : Option Bool → Ending
  | none => .late
  | some false => .halted
  | some true => .calm

/-- What comes between two rounds is a pause. -/
theorem betweenRounds_plays {owner : Node} {deadline start : Nat} {value : Option (Option Bool)}
    (plays : (context.ported.betweenRounds owner deadline start).Plays context.port setting engine
      events value final) :
    ∃ goesOn, value = some goesOn ∧
      Pause context.task deadline (pauseEnding goesOn) events := by
  obtain ⟨(time : Nat), _, _, rfl, timed⟩ := plays_ask rfl plays
  replace timed : (if deadline ≤ time then pure none else _ : Acting (Option Bool)).Plays _ _ _ _ _ _ :=
    timed
  by_cases up : deadline ≤ time
  · rw [if_pos up] at timed
    obtain ⟨rfl, rfl, -⟩ := plays_done timed
    exact ⟨none, rfl, .late time up⟩
  · rw [if_neg up] at timed
    obtain ⟨(later : Nat), _, _, rfl, waits⟩ := plays_ask rfl timed
    obtain ⟨goesOn, slept, _, _, rfl, pause, ends⟩ := plays_then sleep_plays waits
    obtain ⟨rfl, rfl, -⟩ := plays_done ends
    rw [List.append_nil]
    refine ⟨some goesOn, rfl, .now time (.now later ?_)⟩
    cases goesOn <;> exact pause

/-- What is played in a round, and what it tells. -/
theorem tryAll_plays {candidates : List String} {earlier : Option (String × RecoId)}
    {value : Option (Option (Round context.graph memory))}
    (plays : (context.ported.tryAll memory candidates earlier).Plays context.port setting engine
      events value final) :
    ∃ round, value = some round ∧ ∃ poll : Poll, poll.Does context events ∧
      ((poll = .crashed ∧ round = none) ∨
        (poll = .blind ∧ round = some (.missed true earlier)) ∨
        ∃ frame attempts told, poll = .seeing frame attempts ∧ round = some told ∧
          told.Tells candidates.idxOf candidates.eraseDups false earlier attempts) := by
  obtain ⟨reply, _, _, rfl, captured⟩ := plays_ask rfl plays
  match reply with
  | .crashed =>
    obtain ⟨rfl, rfl, -⟩ := plays_done captured
    exact ⟨none, rfl, .crashed, .crashed, .inl ⟨rfl, rfl⟩⟩
  | .returned none =>
    cases captured with
    | step _ _ counted =>
      obtain ⟨rfl, rfl, -⟩ := plays_done counted
      exact ⟨_, rfl, .blind, .blind _, .inr (.inl ⟨rfl, rfl⟩)⟩
  | .returned (some frame) =>
    cases captured with
    | step _ _ counted =>
      replace counted : (some <$> context.ported.tryFrom memory frame 0 [] false earlier
        candidates).Plays context.port setting _ _ value final := counted
      rw [tryFrom_eq_tryEach] at counted
      obtain ⟨told, _, _, _, rfl, ⟨attempts, tried, tells⟩, ends⟩ :=
        plays_then tryEach_plays counted
      obtain ⟨rfl, rfl, -⟩ := plays_done ends
      rw [List.append_nil]
      exact ⟨_, rfl, .seeing frame attempts, .seeing _ tried,
        .inr (.inr ⟨frame, attempts, told, rfl, rfl, tells⟩)⟩

theorem giveUp_gaveUp (graph : Graph) (memory : Memory) (interruptAt : Nat)
    (last : Option (String × RecoId)) :
    (giveUp interruptAt last : Scan graph memory).GaveUp interruptAt last := by
  unfold giveUp
  split
  · exact .exhausted ‹_›
  · exact .missed ‹_›

/-- After a round with which a scan goes on comes a pause, and then the scan gives up, stops or
goes on. -/
theorem pause_plays {owner : Node} {candidates : List String}
    {interruptAt deadline patience start : Nat} {earlier last : Option (String × RecoId)}
    {poll : Poll} {value : Option (Scan context.graph memory)}
    (goesOn : poll.GoesOn context.graph memory candidates)
    (isLast : last = lastOf poll.attempts earlier)
    (later : ∀ {engine events},
      (context.ported.scanRounds memory owner candidates interruptAt deadline patience last).Plays
        context.port setting engine events value final →
      ∃ scan, value = some scan ∧ ∃ polls ending, Polls context deadline polls ending events ∧
        Concludes context.graph memory candidates interruptAt patience last polls ending scan)
    (plays : (context.ported.betweenRounds owner deadline start >>= fun goesOn =>
      match goesOn with
      | none => pure (giveUp interruptAt last)
      | some false => pure .stopped
      | some true => context.ported.scanRounds memory owner candidates interruptAt deadline
          patience last).Plays context.port setting engine events value final) :
    ∃ scan, value = some scan ∧ ∃ polls ending, Polls context deadline polls ending events ∧
      Concludes context.graph memory candidates interruptAt (patience + 1) earlier (poll :: polls)
        ending scan := by
  subst isLast
  obtain ⟨ready, _, _, _, rfl, pause, ends⟩ := plays_then betweenRounds_plays plays
  match ready with
  | none =>
    obtain ⟨rfl, rfl, -⟩ := plays_done ends
    rw [List.append_nil]
    have gaveUp := giveUp_gaveUp context.graph memory interruptAt (lastOf poll.attempts earlier)
    refine ⟨_, rfl, [], .late, .last pause, (Closes.late gaveUp).concludes_after goesOn ?_⟩
    exact gaveUp.closed
  | some false =>
    obtain ⟨rfl, rfl, -⟩ := plays_done ends
    rw [List.append_nil]
    exact ⟨_, rfl, [], .halted, .last pause, Closes.stopped.concludes_after goesOn nofun⟩
  | some true =>
    obtain ⟨scan, rfl, polls, ending, played, concludes⟩ := later ends
    exact ⟨scan, rfl, polls, ending, played.after pause, concludes.more goesOn⟩

/-- The rounds of a scan, and what they tell of it. -/
theorem scanRounds_plays {owner : Node} {candidates : List String}
    {interruptAt deadline patience : Nat} {earlier : Option (String × RecoId)}
    {value : Option (Scan context.graph memory)}
    (plays : (context.ported.scanRounds memory owner candidates interruptAt deadline patience
      earlier).Plays context.port setting engine events value final) :
    ∃ scan, value = some scan ∧ ∃ polls ending, Polls context deadline polls ending events ∧
      Concludes context.graph memory candidates interruptAt patience earlier polls ending scan := by
  induction patience generalizing earlier engine events with
  | zero =>
    obtain ⟨rfl, rfl, -⟩ := plays_done plays
    exact ⟨_, rfl, [], .calm, .last .calm, Closes.unfinished.concludes nofun fun _ => rfl⟩
  | succ patience ih =>
    obtain ⟨found, asked, _, rfl, isAsked, looked⟩ := plays_look plays
    cases asked with
    | true =>
      obtain ⟨rfl, rfl, -⟩ := plays_done looked
      exact ⟨_, rfl, [], .halted, .last (.halted found isAsked),
        Closes.stopped.concludes nofun nofun⟩
    | false =>
      obtain ⟨(start : Nat), _, _, rfl, begun⟩ := plays_ask rfl looked
      obtain ⟨round, during, rest, _, rfl, ⟨poll, does, comes⟩, tried⟩ :=
        plays_then tryAll_plays begun
      suffices ends : ∃ scan, value = some scan ∧ ∃ polls ending,
          Polls context deadline polls ending rest ∧
          Concludes context.graph memory candidates interruptAt (patience + 1) earlier
            (poll :: polls) ending scan by
        obtain ⟨scan, rfl, polls, ending, later, concludes⟩ := ends
        exact ⟨scan, rfl, _, ending, .poll .calm found isAsked start does later, concludes⟩
      rcases comes with ⟨rfl, rfl⟩ | ⟨rfl, rfl⟩ | ⟨frame, attempts, told, rfl, rfl, tells⟩
      · obtain ⟨rfl, rfl, -⟩ := plays_done tried
        exact ⟨_, rfl, [], .calm, .last .calm, Closes.crashed.concludes nofun nofun⟩
      · exact pause_plays .blind rfl ih tried
      · match told with
        | .hit position node reco =>
          obtain ⟨missed, rfl, allMissed, isHit, rfl, inOrder⟩ := tells
          obtain ⟨rfl, rfl, -⟩ := plays_done tried
          rw [List.map_append] at inOrder
          exact ⟨_, rfl, [], .calm, .last .calm,
            Closes.concludes (.hit frame node reco allMissed isHit inOrder) nofun nofun⟩
        | .unknown name =>
          obtain ⟨allMissed, first, all⟩ := tells
          obtain ⟨rfl, rfl, -⟩ := plays_done tried
          rw [Graph.unknown?, find?_eraseDups] at first
          exact ⟨_, rfl, [], .calm, .last .calm,
            Closes.concludes (.unknown frame allMissed first all) nofun nofun⟩
        | .missed any last =>
          obtain ⟨allMissed, knows, all, isAny, isLast⟩ := tells
          replace knows : context.graph.Knows candidates := fun name listed =>
            knows name (List.mem_eraseDups.mpr listed)
          cases attempts with
          | nil =>
            subst isAny isLast
            obtain ⟨rfl, rfl, -⟩ := plays_done tried
            have gaveUp := giveUp_gaveUp context.graph memory interruptAt last
            exact ⟨_, rfl, [], .calm, .last .calm,
              (Closes.nothing frame knows all.symm gaveUp).concludes nofun
                fun open' => absurd open' gaveUp.closed⟩
          | cons attempt attempts =>
            subst isAny
            exact pause_plays (.seeing frame (List.cons_ne_nil _ _) allMissed knows all) isLast ih
              tried

end RunContext

end ScreenPilot
