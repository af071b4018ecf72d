import ScreenPilot.Proofs.Run.Journeys
import ScreenPilot.Proofs.Run.Returns
import ScreenPilot.Run.Single

/-!
# How often nodes are hit

The count that is kept of a node is the number of its hits, in all runs that share a memory
(`Memory.Counts`); so it never wraps around. A run tries a node only if it is one of the graph,
enabled and hit less often than it may be (`Capped`), and a hit comes of an attempt. So no node
is hit more often than it may be.

The hits of a turn come last in it, so at every attempt of a turn the count of the walk is
still the number of hits so far.
-/

set_option autoImplicit false

namespace ScreenPilot

open Activity Engine

/-- How often a node of this name was hit. -/
def timesHit (nodes : List Node) (name : String) : Nat := (nodes.map Node.name).count name

@[simp] theorem timesHit_append (first second : List Node) (name : String) :
    timesHit (first ++ second) name = timesHit first name + timesHit second name := by
  simp [timesHit]

/-- The memory counts these hits. -/
def Memory.Counts (memory : Memory) (nodes : List Node) : Prop :=
  ∀ name, (memory.hitsOf name).toNat = timesHit nodes name

theorem Memory.counts_empty : Memory.empty.Counts [] := by
  intro name
  simp [hitsOf, empty, timesHit]

/-- The hit of a node that may be hit once more is counted. -/
theorem Memory.Counts.hit {graph : Graph} {memory : Memory} {nodes : List Node}
    (counts : memory.Counts nodes) (eligible : Memory.Eligible graph memory) :
    (memory.hit eligible.node).Counts (nodes ++ [eligible.node]) := by
  intro name
  by_cases same : eligible.node.name = name
  · subst same
    rw [toNat_hitsOf_hit, counts, timesHit_append]
    simp [timesHit]
  · rw [hitsOf_hit, if_neg same, counts, timesHit_append]
    simp [timesHit, same]

/-! ## Attempts below the limit -/

/-- Every attempt is on a node of the graph that is enabled and was hit less often than it may
be, in these earlier hits and those among the attempts before. -/
inductive Capped (graph : Graph) : List Node → List (Node × Bool) → Prop where
  | nil (earlier : List Node) : Capped graph earlier []
  | cons {earlier : List Node} {node : Node} {hit : Bool} {rest : List (Node × Bool)}
      (isNode : graph.find? node.name = some node) (enabled : node.enabled = true)
      (below : timesHit earlier node.name < node.maxHit.toNat)
      (later : Capped graph (earlier ++ hitsAmong [(node, hit)]) rest) :
      Capped graph earlier ((node, hit) :: rest)

namespace Capped

variable {graph : Graph} {earlier : List Node} {first second : List (Node × Bool)}

theorem append (capped : Capped graph earlier first)
    (later : Capped graph (earlier ++ hitsAmong first) second) :
    Capped graph earlier (first ++ second) := by
  induction capped with
  | nil => simpa [hitsAmong] using later
  | cons isNode enabled below _ ih =>
    refine .cons isNode enabled below (ih ?_)
    rw [List.append_assoc, ← hitsAmong_append]
    exact later

/-- What is known of an attempt. -/
theorem at_attempt {before after : List (Node × Bool)} {node : Node} {hit : Bool}
    (capped : Capped graph earlier (before ++ (node, hit) :: after)) :
    graph.find? node.name = some node ∧ node.enabled = true ∧
      timesHit (earlier ++ hitsAmong before) node.name < node.maxHit.toNat := by
  induction before generalizing earlier with
  | nil =>
    cases capped with
    | cons isNode enabled below => exact ⟨isNode, enabled, by simpa [hitsAmong] using below⟩
  | cons attempt before ih =>
    cases capped with
    | cons _ _ _ later =>
      have known := ih later
      rwa [List.append_assoc, ← hitsAmong_append] at known

/-- Hits that come of such attempts stay within the limit. -/
theorem timesHit_le (capped : Capped graph earlier first) {node : Node}
    (isNode : graph.find? node.name = some node)
    (within : timesHit earlier node.name ≤ node.maxHit.toNat) :
    timesHit (earlier ++ hitsAmong first) node.name ≤ node.maxHit.toNat := by
  induction capped with
  | nil => simpa [hitsAmong] using within
  | @cons earlier tried hit rest isTried _ below _ ih =>
    have split : hitsAmong ((tried, hit) :: rest) = hitsAmong [(tried, hit)] ++ hitsAmong rest :=
      hitsAmong_append [(tried, hit)] rest
    rw [split, ← List.append_assoc]
    apply ih
    cases hit with
    | false => simpa [hitsAmong] using within
    | true =>
      have once : hitsAmong [(tried, true)] = [tried] := rfl
      rw [once, timesHit_append]
      by_cases same : tried.name = node.name
      · rw [same, isNode] at isTried
        obtain rfl := Option.some.inj isTried
        simpa [timesHit, Nat.succ_le_iff] using below
      · simpa [timesHit, same] using within

end Capped

namespace RunContext

variable {context : RunContext} {setting : Setting Engine} {engine final : Engine}
  {events : List RunEvent} {walk : Walk}

/-! ## Turns and runs -/

/-- Attempts that miss are capped if what they try may be hit. -/
theorem capped_missed {graph : Graph} {memory : Memory} {earlier missed : List Node}
    (counts : memory.Counts earlier)
    (eligible : ∀ node ∈ missed, graph.find? node.name = some node ∧ node.enabled = true ∧
      memory.hitsOf node.name < node.maxHit) : Capped graph earlier (missed.map (·, false)) := by
  induction missed with
  | nil => exact .nil earlier
  | cons node missed ih =>
    obtain ⟨⟨isNode, enabled, below⟩, later⟩ := List.forall_mem_cons.mp eligible
    refine .cons isNode enabled ?_ ?_
    · rw [← counts]
      exact UInt32.lt_iff_toNat_lt.mp below
    · simpa [hitsAmong] using ih later

/-- What a turn tries is capped, and it counts its hit. -/
theorem TurnTells.capped {earlier missed : List Node} {hit : Option Node}
    {value : Option (Turn context.graph walk)} (counts : walk.memory.Counts earlier)
    (tells : context.TurnTells walk events value missed hit) :
    Capped context.graph earlier (trials events) ∧
      ∀ turn, value = some turn → turn.memory.Counts (earlier ++ hits events) := by
  obtain ⟨allMissed, mayHit⟩ := List.forall_mem_append.mp tells.eligible
  have noHit : hitsAmong (missed.map (·, false)) = [] := by
    simp [hitsAmong]
  constructor
  · rw [tells.tried]
    refine (capped_missed counts allMissed).append ?_
    rw [noHit, List.append_nil]
    cases hit with
    | none => exact .nil earlier
    | some node =>
      obtain ⟨isNode, enabled, below⟩ := mayHit node List.mem_cons_self
      refine .cons isNode enabled ?_ (.nil _)
      rw [← counts]
      exact UInt32.lt_iff_toNat_lt.mp below
  · intro turn comes
    obtain ⟨interrupted, same⟩ := tells.memory turn comes
    rw [same, tells.hits_eq]
    cases hit with
    | none =>
      rw [Option.toList_none, List.append_nil]
      exact counts
    | some node =>
      obtain ⟨isNode, enabled, below⟩ := mayHit node List.mem_cons_self
      exact counts.hit ⟨node, isNode, enabled, below⟩

/-- What turns try, one after the other, is capped, and the walk counts their hits. -/
theorem Journey.capped {first : Walk} {start : Engine} {past : List RunEvent}
    {earlier : List Node} (counts : first.memory.Counts earlier)
    (journey : context.Journey setting first start past walk engine) :
    Capped context.graph earlier (trials past) ∧ walk.memory.Counts (earlier ++ hits past) := by
  induction journey with
  | here =>
    refine ⟨.nil earlier, ?_⟩
    simpa [trials, hitsAmong] using counts
  | turn _ plays ih =>
    obtain ⟨capped, counted⟩ := ih
    obtain ⟨missed, hit, tells⟩ := turn_plays plays
    obtain ⟨more, counts'⟩ := tells.capped counted
    rw [trials_append, hits_append, ← List.append_assoc]
    exact ⟨capped.append more, counts' _ rfl⟩

/-- What a run tries is capped, and the memory that it leaves counts its hits. -/
theorem run_capped {memory : Memory} {earlier : List Node} (counts : memory.Counts earlier)
    {entry : String} {value : Option (Memory × RunResult)}
    (plays : (context.ported.run memory entry).Plays context.port setting engine events value
      final) :
    Capped context.graph earlier (trials events) ∧
      ∀ memory' result, value = some (memory', result) → memory'.Counts (earlier ++ hits events) := by
  obtain ⟨past, rest, walk, middle, rfl, journey, turn, turned, ended⟩ := walkOn_plays plays
  obtain ⟨capped, counted⟩ := journey.capped counts
  obtain ⟨missed, hit, tells⟩ := turn_plays turned
  obtain ⟨more, counts'⟩ := tells.capped counted
  rw [trials_append, hits_append, ← List.append_assoc]
  refine ⟨capped.append more, fun memory' result is => ?_⟩
  rcases ended with ⟨-, none⟩ | ⟨memory', result', rfl, same⟩
  · exact nomatch is.symm.trans none
  · cases is.symm.trans same
    exact counts' _ rfl

/-! ## Interpreters -/

/-- What an interpreter remembers after runs on it, and what these have played so far. Between
them single nodes may be recognized or acted on. -/
inductive Uses (context : RunContext) : List RunEvent → Memory → Prop where
  | fresh : Uses context [] .empty
  | run {past events : List RunEvent} {memory memory' : Memory} {setting : Setting Engine}
      {entry : String} {engine final : Engine} {result : RunResult} (before : Uses context past memory)
      (plays : (context.ported.run memory entry).Plays context.port setting engine events
        (some (memory', result)) final) : Uses context (past ++ events) memory'
  | recognizeOnce {past events : List RunEvent} {memory : Memory} {setting : Setting Engine}
      {entry : String} {engine final : Engine} {value : Option RunResult}
      (before : Uses context past memory)
      (plays : (context.ported.recognizeOnce entry).Plays context.port setting engine events value
        final) : Uses context past memory
  | actOnce {past events : List RunEvent} {memory : Memory} {setting : Setting Engine}
      {entry : String} {box : Rect} {engine final : Engine} {value : Option RunResult}
      (before : Uses context past memory)
      (plays : (context.ported.actOnce entry box).Plays context.port setting engine events value
        final) : Uses context past memory

/-- What is tried in all runs of one interpreter is capped, and its memory counts the hits. -/
theorem Uses.capped {past : List RunEvent} {memory : Memory} (uses : context.Uses past memory) :
    Capped context.graph [] (trials past) ∧ memory.Counts (hits past) := by
  induction uses with
  | fresh => exact ⟨.nil [], Memory.counts_empty⟩
  | run _ plays ih =>
    obtain ⟨capped, counted⟩ := ih
    obtain ⟨more, counts'⟩ := run_capped counted plays
    rw [trials_append, hits_append]
    exact ⟨capped.append more, counts' _ _ rfl⟩
  | recognizeOnce _ _ ih => exact ih
  | actOnce _ _ ih => exact ih

/-- **A node is not hit more often than it may be**, in all runs of one interpreter, and one that
is not enabled or was hit as often as it may be is not even tried; **and the counts never wrap
around**, whatever the limit is. This is said of what a run plays with its ports, and every run
that ends has played so. -/
theorem hits_capped (context : RunContext) {past : List RunEvent} {memory : Memory}
    (uses : context.Uses past memory) (setting : Setting Engine) (entry : String)
    (start : Engine) :
    (∀ name, (memory.hitsOf name).toNat = timesHit (hits past) name) ∧
    (∀ memory' result final,
      (context.run memory entry).Ends setting start (memory', result) final →
        ∃ events value, (context.ported.run memory entry).Plays context.port setting start events
            value final ∧
          (value = some (memory', result) ∨ value = none ∧ result = .unfinished)) ∧
    (∀ events value final, (context.ported.run memory entry).Plays context.port setting start
        events value final →
      (∀ node, context.graph.find? node.name = some node →
        timesHit (hits (past ++ events)) node.name ≤ node.maxHit.toNat) ∧
      ∀ before node hit after, trials events = before ++ (node, hit) :: after →
        context.graph.find? node.name = some node ∧ node.enabled = true ∧
          timesHit (hits past ++ hitsAmong before) node.name < node.maxHit.toNat) ∧
    ∀ played walk engine,
      context.Journey setting (Walk.start memory entry) start played walk engine →
      ∀ events value final, (context.ported.turn walk).Plays context.port setting engine events
          value final →
        ∀ node ∈ hits events,
          (walk.memory.hitsOf node.name).toNat = timesHit (hits (past ++ played)) node.name ∧
          (walk.memory.hitsOf node.name).toNat + 1 < UInt32.size := by
  obtain ⟨capped, counts⟩ := uses.capped
  refine ⟨counts, ?_, ?_, ?_⟩
  · intro memory' result final ends
    exact (context.handled.run memory entry).plays ends
  · intro events value final plays
    obtain ⟨more, -⟩ := run_capped counts plays
    constructor
    · intro node isNode
      have all := capped.append more
      rw [← trials_append] at all
      have none : timesHit [] node.name ≤ node.maxHit.toNat := Nat.zero_le _
      exact all.timesHit_le isNode none
    · intro before node hit after split
      rw [split] at more
      exact more.at_attempt
  · intro played walk engine journey events value final plays node isHit
    obtain ⟨-, counted⟩ := journey.capped counts
    obtain ⟨missed, hit, tells⟩ := turn_plays plays
    rw [tells.hits_eq] at isHit
    obtain ⟨-, -, below⟩ := tells.eligible node (List.mem_append_right _ isHit)
    refine ⟨?_, ?_⟩
    · rw [hits_append]
      exact counted node.name
    · have limit := node.maxHit.toNat_lt_size
      have few := UInt32.lt_iff_toNat_lt.mp below
      omega

/-! ### A node that is hit as often as it may be -/

/-- A node that follows itself and may be hit once. -/
def transient : Node := { recurrent with maxHit := 1 }

/-- A run that begins with this node. -/
def spent : RunContext := { hasty with graph := Graph.empty.insert transient }

/-- The walk after the node was hit. -/
def spentWalk : Walk :=
  Walk.follow (memoryAfterHit (Walk.start .empty "A") 0 transient) transient false

/-- The node is hit once, and then not looked for any more. -/
theorem spent_ends : ∃ memory, (memory.hitsOf "A").toNat = 1 ∧
    (standstill.carry (spent.run .empty "A") (posted, ())).1 =
      (memory, .ended (.failed (.unhandled .noMatch))) := by
  unfold run
  rw [walkOn]
  show ∃ memory, _ ∧ (standstill.carry (spent.walkOn spentWalk) _).1 = (memory, _)
  rw [walkOn]
  exact ⟨_, rfl, rfl⟩

/-- Another run on the same interpreter does not try it. -/
theorem spent_capped : ∃ past memory, spent.Uses past memory ∧
    (memory.hitsOf "A").toNat = 1 ∧ timesHit (hits past) "A" = 1 ∧
    ∀ events value final, (spent.ported.run memory "A").Plays spent.port standstill.setting posted
        events value final →
      timesHit (hits (past ++ events)) "A" ≤ 1 := by
  obtain ⟨memory, once, isEnd⟩ := spent_ends
  have ends := standstill.ends_carry (spent.run .empty "A") (posted, ())
  rw [isEnd] at ends
  obtain ⟨-, played, -⟩ := hits_capped spent .fresh standstill.setting "A" posted
  obtain ⟨events, value, plays, rfl | ⟨-, open'⟩⟩ := played _ _ _ ends
  · have uses : spent.Uses ([] ++ events) memory := .run .fresh plays
    obtain ⟨counts, -, within, -⟩ := hits_capped spent uses standstill.setting "A" posted
    refine ⟨_, memory, uses, once, (counts "A").symm.trans once, fun events value final plays => ?_⟩
    exact (within events value final plays).1 transient (by
      rw [spent, Graph.find?_insert]
      rfl)
  · cases open'

end RunContext

end ScreenPilot
