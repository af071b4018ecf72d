import ScreenPilot.Run.Memory
import ScreenPilot.Run.Visit

/-!
# Looking for candidates

Candidates are looked for in rounds. A round captures the screen and tries the
candidates in their order until one is hit; a name that is listed twice is
tried once. Rounds go on until the time of the owner of the list is up. If a
round has nothing to try, or no round had a hit, the list has missed, unless it
holds interrupts only: these need not appear.
-/

set_option autoImplicit false

namespace ScreenPilot

/-- What came of one round over the candidates. -/
inductive Round (graph : Graph) (memory : Memory) where
  /-- The candidate at a position was hit. -/
  | hit (position : Nat) (node : Memory.Eligible graph memory) (reco : RecoResult)
  /-- No node has this name. -/
  | unknown (name : String)
  /-- No candidate was hit. Whether any could be tried, and the last attempt of
  this and of earlier rounds. -/
  | missed (tried : Bool) (last : Option (String × RecoId))

/-- What came of looking for candidates. -/
inductive Scan (graph : Graph) (memory : Memory) where
  | hit (position : Nat) (node : Memory.Eligible graph memory) (reco : RecoResult)
  /-- No candidate was hit, though one should have been; with the last attempt. -/
  | missed (last : Option (String × RecoId))
  /-- No candidate was hit, and all are interrupts. -/
  | exhausted
  | stopped
  /-- No node has this name. -/
  | unknown (name : String)
  | crashed
  | unfinished

namespace RunContext

open Engine

/-- Tries the candidates of a frame from a position on; `seen` holds the names
before it. -/
def tryFrom (context : RunContext) (memory : Memory) (frame : Frame) (position : Nat)
    (seen : List String) (tried : Bool) (last : Option (String × RecoId)) :
    List String → Acting (Round context.graph memory)
  | [] => pure (.missed tried last)
  | name :: names =>
    if name ∈ seen then
      context.tryFrom memory frame (position + 1) seen tried last names
    else
      match found : context.graph.find? name with
      | none => pure (.unknown name)
      | some node =>
        match memory.eligible? found with
        | none => context.tryFrom memory frame (position + 1) (name :: seen) tried last names
        | some eligible => do
          let reco ← context.recognize frame node
          if reco.isHit then pure (.hit position eligible reco)
          else
            context.tryFrom memory frame (position + 1) (name :: seen) true
              (some (node.name, reco.id)) names

/-- The end of a scan without a hit. -/
def giveUp {graph : Graph} {memory : Memory} (interruptAt : Nat)
    (last : Option (String × RecoId)) : Scan graph memory :=
  if interruptAt = 0 then .exhausted else .missed last

/-- Rests until the next round, or gives up because the time is up. -/
def betweenRounds (context : RunContext) (owner : Node) (deadline round : Nat) :
    Acting (Option Bool) := do
  let time ← now
  if deadline ≤ time then pure none
  else
    let wait := min (nanoseconds owner.rateLimit - ((← now) - round)) (deadline - time)
    return some (← sleep context.signal wait)

/-- One round over the candidates, unless the capture crashes. A round whose
capture fails leaves the last attempt as it was. -/
def tryAll (context : RunContext) (memory : Memory) (candidates : List String)
    (last : Option (String × RecoId)) : Acting (Option (Round context.graph memory)) := do
  match ← capture context.controller with
  | .crashed => pure none
  | .returned none => pure (some (.missed true last))
  | .returned (some frame) => some <$> context.tryFrom memory frame 0 [] false last candidates

/-- Looks for candidates in at most `patience` rounds. -/
def scanRounds (context : RunContext) (memory : Memory) (owner : Node)
    (candidates : List String) (interruptAt deadline : Nat) :
    Nat → Option (String × RecoId) → Acting (Scan context.graph memory)
  | 0, _ => pure .unfinished
  | patience + 1, last => do
    if ← isStopped context.signal then pure .stopped
    else
      let start ← now
      match ← context.tryAll memory candidates last with
      | none => pure .crashed
      | some (.hit position node reco) => pure (.hit position node reco)
      | some (.unknown name) => pure (.unknown name)
      | some (.missed false last) => pure (giveUp interruptAt last)
      | some (.missed true last) =>
        match ← context.betweenRounds owner deadline start with
        | none => pure (giveUp interruptAt last)
        | some false => pure .stopped
        | some true =>
          context.scanRounds memory owner candidates interruptAt deadline patience last

/-- Looks for candidates, of which those from position `interruptAt` on are
interrupts, for as long as the owner of the list says. -/
def scan (context : RunContext) (memory : Memory) (owner : Node) (candidates : List String)
    (interruptAt : Nat) : Acting (Scan context.graph memory) := do
  let deadline := (← now) + nanoseconds owner.timeout
  context.scanRounds memory owner candidates interruptAt deadline context.patience none

end RunContext

end ScreenPilot
