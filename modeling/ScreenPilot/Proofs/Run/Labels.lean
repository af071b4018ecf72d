import ScreenPilot.Proofs.Run.Interrupts
import ScreenPilot.Proofs.Run.Journeys
import ScreenPilot.Proofs.Run.Known

/-!
# Where labels lead

A run remembers for each label the node with this label that was hit last. So what it
remembers is a function of its hits alone (`lastWith`), between any two turns and in the end,
and does not depend on how the actions end. A node that goes back to labels is followed by the
nodes that these lead to by then, whether it completes or is resumed (`Walk.JumpsBack`).

Each turn hits one node at most, and the labels of this node are the ones that change
(`TurnTells.memory`).
-/

set_option autoImplicit false

namespace ScreenPilot

open Activity Engine

/-- The last one of these nodes that has the label, by its name. -/
def lastWith (nodes : List Node) (label : String) : Option String :=
  (nodes.filter fun node => node.checkpoint.contains label).getLast?.map Node.name

theorem lastWith_cons (node : Node) (nodes : List Node) (label : String) :
    lastWith (node :: nodes) label =
      (lastWith nodes label).or
        (if label ∈ node.checkpoint.toList then some node.name else none) := by
  unfold lastWith
  by_cases has : label ∈ node.checkpoint.toList
  · have here : node.checkpoint.contains label = true := by simpa using has
    rw [List.filter_cons, if_pos here, if_pos has, List.getLast?_cons]
    cases (nodes.filter fun node => node.checkpoint.contains label).getLast? <;> rfl
  · have absent : ¬node.checkpoint.contains label = true := by simpa using has
    rw [List.filter_cons, if_neg absent, if_neg has, Option.or_none]

/-- No node leads anywhere for a label that it does not have. -/
theorem lastWith_eq_none {nodes : List Node} {label : String} :
    lastWith nodes label = none ↔ ∀ node ∈ nodes, label ∉ node.checkpoint := by
  simp [lastWith]

/-- After hits, a label leads to the last one that has it, or where it led before. -/
theorem Memory.checkpoints_foldl_hit (memory : Memory) (nodes : List Node) (label : String) :
    (nodes.foldl Memory.hit memory).checkpoints[label]? =
      (lastWith nodes label).or memory.checkpoints[label]? := by
  induction nodes generalizing memory with
  | nil => rfl
  | cons node nodes ih =>
    rw [List.foldl_cons, ih, Memory.checkpoints_hit, lastWith_cons, Option.or_assoc]
    congr 1
    split <;> rfl

/-- On a fresh memory, hits alone decide where labels lead. -/
theorem Memory.checkpoints_of_hits {memory : Memory} {nodes : List Node}
    {interrupted : List String}
    (same : memory = { nodes.foldl Memory.hit Memory.empty with interrupted }) (label : String) :
    memory.checkpoints[label]? = lastWith nodes label := by
  rw [same]
  show (nodes.foldl Memory.hit Memory.empty).checkpoints[label]? = _
  rw [Memory.checkpoints_foldl_hit]
  simp [Memory.empty]

/-- The walk looks for the nodes that the labels lead to which a node goes back to, in the order
of the labels, and none of them is an interrupt. -/
structure Walk.JumpsBack (walk : Walk) (node : Node) (hits : List Node) : Prop where
  owner : walk.owner = node.name
  candidates : walk.candidates = node.jumpback.filterMap (lastWith hits)
  interruptAt : walk.interruptAt = walk.candidates.length

theorem Walk.JumpsBack.of_follow {memory : Memory} {node : Node} {recovering : Bool}
    {hits : List Node} (goesBack : node.jumpback ≠ [])
    (leads : ∀ label, memory.checkpoints[label]? = lastWith hits label) :
    (Walk.follow memory node recovering).JumpsBack node hits := by
  have follows : memory.followers node = (node.jumpback.filterMap (lastWith hits),
      (node.jumpback.filterMap (lastWith hits)).length) := by
    simp [Memory.followers, goesBack, leads]
  refine ⟨rfl, ?_, ?_⟩
  · show (memory.followers node).1 = _
    rw [follows]
  · show (memory.followers node).2 = (memory.followers node).1.length
    rw [follows]

namespace RunContext

variable {context : RunContext} {setting : Setting Engine} {engine start final : Engine}
  {past events : List RunEvent} {entry : String} {walk : Walk}

/-- Between two turns of a run, each label leads to the node with it that was hit last. -/
theorem Journey.checkpoints
    (journey : context.Journey setting (Walk.start .empty entry) start past walk engine)
    (label : String) : walk.memory.checkpoints[label]? = lastWith (hits past) label := by
  obtain ⟨interrupted, same⟩ := journey.remembers
  exact Memory.checkpoints_of_hits same label

/-- After a turn that follows, each label leads to the node with it that was hit last. -/
theorem Journey.checkpoints_turn
    (journey : context.Journey setting (Walk.start .empty entry) start past walk engine)
    {turn : Turn context.graph walk}
    (plays : (context.ported.turn walk).Plays context.port setting engine events (some turn) final)
    (label : String) :
    turn.memory.checkpoints[label]? = lastWith (hits (past ++ events)) label := by
  obtain ⟨interrupted, before⟩ := journey.remembers
  obtain ⟨missed, hit, tells⟩ := turn_plays plays
  obtain ⟨interrupted, same⟩ := tells.remembers before rfl
  rw [hits_append]
  exact Memory.checkpoints_of_hits same label

/-- A turn with nothing left to look for resumes the node that was interrupted last, if it goes
on. -/
theorem turn_resumes (nothing : walk.candidates = []) {next : Walk}
    {closer : next.Closer context.graph walk}
    (plays : (context.ported.turn walk).Plays context.port setting engine events
      (some (.next next closer)) final) :
    ∃ name rest node, walk.memory.interrupted = name :: rest ∧
      context.graph.find? name = some node ∧ hits events = [] ∧
      next = Walk.follow { walk.memory with interrupted := rest } node walk.recovering := by
  obtain ⟨found, asked, _, rfl, -, looked⟩ := plays_look plays
  cases asked with
  | true => cases (plays_done looked).2.1
  | false =>
    rw [if_neg Bool.false_ne_true, dif_pos nothing] at looked
    obtain ⟨rfl, same, -⟩ := plays_done looked
    replace same := Option.some.inj same
    cases stack : walk.memory.interrupted with
    | nil =>
      rw [context.ported.resume_of_nil nothing stack] at same
      cases same
    | cons name rest =>
      rcases context.ported.resume_cases nothing stack with ⟨-, failed⟩ | ⟨node, isNode, _, resumed⟩
      · rw [failed] at same
        cases same
      · rw [resumed] at same
        cases same
        exact ⟨name, rest, node, rfl, isNode, rfl, rfl⟩

/-- **Each label leads to the node with it that was hit last**, between any two turns of a run
on a fresh memory and at its end; **and a node that goes back to labels is followed by the
nodes that these lead to**, when its action has succeeded and when it is resumed. This is said
of what a run plays with its ports, and every run that ends has played so. -/
theorem run_checkpoints (context : RunContext) (setting : Setting Engine) (entry : String)
    (start : Engine) :
    (∀ past walk engine,
      context.Journey setting (Walk.start .empty entry) start past walk engine →
      (∀ label, walk.memory.checkpoints[label]? = lastWith (hits past) label ∧
        (walk.memory.checkpoints[label]? = none ↔ ∀ node ∈ hits past, label ∉ node.checkpoint)) ∧
      ∀ events turn final, (context.ported.turn walk).Plays context.port setting engine events
          (some turn) final →
        (∀ node, (node, true) ∈ actions events → node.jumpback ≠ [] →
          ∃ next closer, turn = .next next closer ∧ next.JumpsBack node (hits (past ++ events))) ∧
        (walk.candidates = [] → ∀ next closer, turn = .next next closer →
          ∃ name rest node, walk.memory.interrupted = name :: rest ∧
            context.graph.find? name = some node ∧ hits events = [] ∧
            (node.jumpback ≠ [] → next.JumpsBack node (hits past)))) ∧
    (∀ memory result final,
      (context.run .empty entry).Ends setting start (memory, result) final →
        ∃ events value, (context.ported.run .empty entry).Plays context.port setting start events
            value final ∧
          (value = some (memory, result) ∨ value = none ∧ result = .unfinished)) ∧
    ∀ events value final, (context.ported.run .empty entry).Plays context.port setting start events
        value final →
      ∃ past rest walk engine, events = past ++ rest ∧
        context.Journey setting (Walk.start .empty entry) start past walk engine ∧
        ∀ memory result, value = some (memory, result) →
          ∀ label, memory.checkpoints[label]? = lastWith (hits events) label := by
  refine ⟨fun past walk engine journey => ⟨fun label => ?_, ?_⟩, ?_, ?_⟩
  · rw [journey.checkpoints label]
    exact ⟨rfl, lastWith_eq_none⟩
  · intro events turn final plays
    refine ⟨fun node done goesBack => ?_, ?_⟩
    · obtain ⟨missed, hit, tells⟩ := turn_plays plays
      obtain ⟨-, follows⟩ := tells.completes node done
      obtain ⟨next, closer, rfl, same⟩ := follows turn rfl
      refine ⟨next, closer, rfl, ?_⟩
      rw [same]
      exact .of_follow goesBack (journey.checkpoints_turn plays)
    · rintro nothing next closer rfl
      obtain ⟨name, rest, node, stack, isNode, noHit, rfl⟩ := turn_resumes nothing plays
      exact ⟨name, rest, node, stack, isNode, noHit, fun goesBack =>
        .of_follow goesBack journey.checkpoints⟩
  · intro memory result final ends
    exact (context.handled.run .empty entry).plays ends
  · intro events value final plays
    obtain ⟨past, rest, walk, engine, rfl, journey, turn, turned, ended⟩ := walkOn_plays plays
    refine ⟨past, rest, walk, engine, rfl, journey, fun memory result is => ?_⟩
    rcases ended with ⟨-, none⟩ | ⟨memory', result', rfl, same⟩
    · exact nomatch is.symm.trans none
    · cases is.symm.trans same
      exact journey.checkpoints_turn turned

/-! ### A run that goes back to its own label -/

/-- A node that goes back to itself by a label of its own, and may be hit once. -/
def homing : Node :=
  { fleeting with checkpoint := Std.ExtTreeSet.empty.insert "top", jumpback := ["top"], maxHit := 1 }

/-- A run that begins with this node. -/
def circling : RunContext := { hasty with graph := Graph.empty.insert homing }

/-- The walk after the node was hit. -/
def homeward : Walk := Walk.follow (memoryAfterHit (Walk.start .empty "A") 0 homing) homing false

/-- The node is looked for again, and may not be hit. -/
theorem circling_ends : ∃ memory, memory.checkpoints["top"]? = some "A" ∧
    (standstill.carry (circling.run .empty "A") (posted, ())).1 =
      (memory, .ended (.failed (.unhandled .noMatch))) := by
  unfold run
  rw [walkOn]
  show ∃ memory, _ ∧ (standstill.carry (circling.walkOn homeward) _).1 = (memory, _)
  rw [walkOn]
  exact ⟨_, rfl, rfl⟩

theorem circling_checkpoints : ∃ memory final events,
    (circling.run .empty "A").Ends standstill.setting posted
      (memory, .ended (.failed (.unhandled .noMatch))) final ∧
    (circling.ported.run .empty "A").Plays circling.port standstill.setting posted events
      (some (memory, .ended (.failed (.unhandled .noMatch)))) final ∧
    memory.checkpoints["top"]? = some "A" ∧ lastWith (hits events) "top" = some "A" := by
  obtain ⟨memory, leadsHome, isEnd⟩ := circling_ends
  have ends := standstill.ends_carry (circling.run .empty "A") (posted, ())
  rw [isEnd] at ends
  obtain ⟨-, played, leads⟩ := run_checkpoints circling standstill.setting "A" posted
  obtain ⟨events, value, plays, rfl | ⟨-, open'⟩⟩ := played _ _ _ ends
  · obtain ⟨_, _, _, _, -, -, last⟩ := leads events _ _ plays
    refine ⟨memory, _, events, ends, plays, leadsHome, ?_⟩
    rw [← last memory _ rfl "top"]
    exact leadsHome
  · cases open'

end RunContext

end ScreenPilot
