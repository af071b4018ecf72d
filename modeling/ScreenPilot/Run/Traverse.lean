import ScreenPilot.Run.Scan

/-!
# Walking a graph

A walk looks for the candidates of one node, visits the one that is hit, and
goes on with the candidates of that one. A hit on an interrupt remembers the
node that was interrupted; when nothing is left to look for, the walk resumes
the node that was interrupted last, or has succeeded.

A node whose candidates missed or whose action failed hands over to the nodes
it names for errors. If these fail too, before any node has completed, the walk
has failed.

Every turn of a walk uses up one of the hits that are left, or turns to errors,
or leaves less to resume; so a walk ends, whatever the graph is.
-/

set_option autoImplicit false

namespace ScreenPilot

/-- Where a walk stands. -/
structure Walk where
  memory : Memory
  /-- The node whose candidates are looked for. -/
  owner : String
  candidates : List String
  /-- The position from which on the candidates are interrupts. -/
  interruptAt : Nat
  /-- A failure is being handled. -/
  recovering : Bool

namespace Walk

/-- A walk about to look for its first node. -/
def start (memory : Memory) (entry : String) : Walk := ⟨memory, entry, [entry], 1, false⟩

/-- The walk goes on with the candidates that follow a node. -/
def follow (memory : Memory) (node : Node) (recovering : Bool) : Walk :=
  let (candidates, interruptAt) := memory.followers node
  ⟨memory, node.name, candidates, interruptAt, recovering⟩

/-- The walk goes on with the nodes that handle the errors of a node. -/
def handle (memory : Memory) (node : Node) : Walk :=
  ⟨memory, node.name, node.onError, node.onError.length, true⟩

/-- What is left to do, in the order in which it is used up. -/
def left (graph : Graph) (walk : Walk) : Nat × Nat × Nat :=
  (walk.memory.remaining graph, if walk.recovering then 0 else 1,
    2 * walk.memory.interrupted.length + if walk.candidates.isEmpty then 0 else 1)

/-- A walk has less left to do than another one. -/
def Closer (graph : Graph) (next walk : Walk) : Prop :=
  Prod.Lex (· < ·) (Prod.Lex (· < ·) (· < ·)) (next.left graph) (walk.left graph)

end Walk

/-- One turn of a walk. -/
inductive Turn (graph : Graph) (walk : Walk) where
  /-- The walk is over. -/
  | finished (memory : Memory) (result : RunResult)
  | next (walk' : Walk) (closer : walk'.Closer graph walk)

namespace RunContext

open Engine

variable (context : RunContext)

/-- The end of a walk that failed. -/
def failed {graph : Graph} {walk : Walk} (memory : Memory) (failure : RunFailure) :
    Turn graph walk := .finished memory (.ended (.failed failure))

/-! ## Turns -/

/-- Resumes the node that was interrupted last, when nothing is left to look
for. -/
def resume (walk : Walk) (nothing : walk.candidates = []) : Turn context.graph walk :=
  match stack : walk.memory.interrupted with
  | [] => .finished walk.memory (.ended .succeeded)
  | name :: interrupted =>
    let memory := { walk.memory with interrupted }
    match context.graph.find? name with
    | none => failed memory (.unknownNode name)
    | some node =>
      .next (Walk.follow memory node walk.recovering) (by
        refine Prod.Lex.right _ (Prod.Lex.right _ ?_)
        simp only [Walk.follow, nothing, stack, List.length_cons, memory]
        simp
        split <;> omega)

/-- Goes on after the candidates have missed. -/
def afterMiss (walk : Walk) (owner : Node) (last : Option (String × RecoId)) :
    Acting (Turn context.graph walk) := do
  let (name, reco) := last.getD (walk.owner, .invalid)
  let visit ← draw .node
  context.recordVisit ⟨visit, name, reco, .invalid, false⟩
  if calm : walk.recovering = false then
    if owner.onError.isEmpty then pure (failed walk.memory (.unhandled .noMatch))
    else
      pure (.next { Walk.handle walk.memory owner with owner := walk.owner } (by
        refine Prod.Lex.right _ (Prod.Lex.left _ _ ?_)
        simp [Walk.handle, calm]))
  else pure (failed walk.memory .errorLoop)

/-- The memory after a hit at a position of the list. -/
def memoryAfterHit (walk : Walk) (position : Nat) (node : Node) : Memory :=
  let memory := walk.memory.hit node
  if walk.interruptAt ≤ position ∨ node.isSub then memory.interrupt walk.owner else memory

/-- A hit leaves fewer hits, whatever is interrupted by it. -/
theorem remaining_memoryAfterHit (walk : Walk) (position : Nat)
    (hit : Memory.Eligible context.graph walk.memory) :
    (memoryAfterHit walk position hit.node).remaining context.graph <
      walk.memory.remaining context.graph := by
  unfold memoryAfterHit
  simp only []
  split
  · exact Memory.remaining_hit_lt hit
  · exact Memory.remaining_hit_lt hit

/-- Goes on after a candidate was hit. -/
def afterHit (walk : Walk) (position : Nat)
    (hit : Memory.Eligible context.graph walk.memory) (reco : RecoResult) :
    Acting (Turn context.graph walk) := do
  let node := hit.node
  let memory := memoryAfterHit walk position node
  have fewer := remaining_memoryAfterHit context walk position hit
  let visit ← draw .node
  match ← context.act visit node reco with
  | .unfinished => pure (.finished memory .unfinished)
  | .notStarted =>
    context.recordVisit ⟨visit, node.name, reco.id, .invalid, false⟩
    pure (.finished memory (.ended .stopped))
  | .done action success =>
    context.recordVisit ⟨visit, node.name, reco.id, action, success⟩
    if success then pure (.next (Walk.follow memory node false) (Prod.Lex.left _ _ fewer))
    else if walk.recovering then pure (failed memory .errorLoop)
    else if node.onError.isEmpty then pure (failed memory (.unhandled .actionFailed))
    else pure (.next (Walk.handle memory node) (Prod.Lex.left _ _ fewer))

/-- Looks for the candidates of a walk and goes on. -/
def look (walk : Walk) (something : walk.candidates ≠ []) :
    Acting (Turn context.graph walk) := do
  match context.graph.find? walk.owner with
  | none => pure (failed walk.memory (.unknownNode walk.owner))
  | some owner =>
    match ← context.scan walk.memory owner walk.candidates walk.interruptAt with
    | .hit position node reco => context.afterHit walk position node reco
    | .missed last => context.afterMiss walk owner last
    | .exhausted =>
      pure (.next { walk with candidates := [] } (by
        refine Prod.Lex.right _ (Prod.Lex.right _ ?_)
        simp [something]))
    | .stopped => pure (.finished walk.memory (.ended .stopped))
    | .unknown name => pure (failed walk.memory (.unknownNode name))
    | .crashed => pure (.finished walk.memory .crashed)
    | .unfinished => pure (.finished walk.memory .unfinished)

/-- One turn of a walk. -/
def turn (walk : Walk) : Acting (Turn context.graph walk) := do
  if ← isStopped context.signal then pure (.finished walk.memory (.ended .stopped))
  else if nothing : walk.candidates = [] then pure (context.resume walk nothing)
  else context.look walk nothing

/-! ## Walks -/

/-- Turns of a walk until it is over; with what it remembers in the end. -/
def walkOn (context : RunContext) (walk : Walk) : Acting (Memory × RunResult) :=
  (context.turn walk).bind fun turn =>
    match turn with
    | .finished memory result => .done (memory, result)
    | .next walk' _ => context.walkOn walk'
termination_by walk.left context.graph
decreasing_by assumption

/-- Walks the graph from a node on, remembering what earlier walks have left. -/
def run (memory : Memory) (entry : String) : Acting (Memory × RunResult) :=
  context.walkOn (Walk.start memory entry)

end RunContext

end ScreenPilot
