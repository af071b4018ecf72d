import ScreenPilot.Proofs.Graph.Tidy
import ScreenPilot.Proofs.Run.Guises
import ScreenPilot.Run.Traverse

/-!
# Names that are listed twice

A run over the tidy graph is the run over the graph, except that other ports are asked about
the tidy nodes (`run_tidy`): it takes the same steps, so it draws the same identities, leaves
the same records and publishes the same events; it asks the same in the same order; it
remembers the same and ends in the same way. So in all surroundings it takes the same course
(`runs_tidy`).

A round tries the first occurrences of a list, each known by where it stands
(`tryFrom_eq_tryEach`). After that a position only matters for whether interrupts have begun
before it, and in this the lists of a walk and of the walk over the tidy graph agree
(`Walk.Tidies`).
-/

set_option autoImplicit false

namespace ScreenPilot

open Activity Engine

/-! ## Questions about tidy nodes -/

namespace Engine

/-- The question about the tidy node. -/
def Question.tidy : Question → Question
  | .recognize recognizer frame node => .recognize recognizer frame node.tidy
  | .act actuator hit node => .act actuator hit node.tidy
  | .awaitStill actuator wait node => .awaitStill actuator wait node.tidy
  | question => question

theorem answer_tidy (question : Question) : Answer question.tidy = Answer question := by
  cases question <;> rfl

/-- Questions about nodes are put about the tidy nodes. -/
def tidying : Rewording outside outside where
  put := Question.tidy
  back question := cast (answer_tidy question)

end Engine

/-- The second activity is the first one with tidy questions, and it comes to a related
value. -/
abbrev Tidies {α β : Type} (related : α → β → Prop) (activity : Acting α) (activity' : Acting β) :
    Prop :=
  activity.Rewords tidying Eq related activity'

/-- A tidy node is the node in another guise. -/
theorem Node.guise_tidy : Node.Guise Node.tidy :=
  ⟨fun _ => rfl, fun _ => rfl, fun _ => rfl, fun _ => rfl, fun _ => rfl, fun _ => rfl, fun _ => rfl,
    fun _ => rfl⟩

namespace RunContext

/-- The run over the tidy graph. -/
abbrev tidy (context : RunContext) : RunContext := { context with graph := context.graph.tidy }

variable (context : RunContext)

/-! ## Visits -/

theorem recognize_tidy (frame : Frame) (node : Node) :
    Tidies Eq (context.recognize frame node) (context.tidy.recognize frame node.tidy) :=
  Node.guise_tidy.recognize node context context.graph.tidy frame

theorem act_tidy (visit : NodeId) (node : Node) (hit : RecoResult) :
    Tidies Eq (context.act visit node hit) (context.tidy.act visit node.tidy hit) :=
  Node.guise_tidy.act node context context.graph.tidy visit hit

theorem recordVisit_tidy (detail : NodeDetail) :
    Tidies Eq (context.recordVisit detail) (context.tidy.recordVisit detail) :=
  Node.Guise.recordVisit context context.graph.tidy detail

/-! ## Rounds -/

/-- Tries candidates in their order, each of which stands at a position. -/
def tryEach (memory : Memory) (frame : Frame) (place : String → Nat) (tried : Bool)
    (last : Option (String × RecoId)) : List String → Acting (Round context.graph memory)
  | [] => pure (.missed tried last)
  | name :: names =>
    match found : context.graph.find? name with
    | none => pure (.unknown name)
    | some node =>
      match memory.eligible? found with
      | none => tryEach memory frame place tried last names
      | some eligible => do
        let reco ← context.recognize frame node
        if reco.isHit then pure (.hit (place name) eligible reco)
        else tryEach memory frame place true (some (node.name, reco.id)) names

theorem tryEach_unknown {memory : Memory} {frame : Frame} {place : String → Nat} {tried : Bool}
    {last : Option (String × RecoId)} {name : String} {names : List String}
    (unknown : context.graph.find? name = none) :
    context.tryEach memory frame place tried last (name :: names) = pure (.unknown name) := by
  rw [tryEach]
  split
  · rfl
  · rename_i found
    exact nomatch unknown.symm.trans found

theorem tryEach_known {memory : Memory} {frame : Frame} {place : String → Nat} {tried : Bool}
    {last : Option (String × RecoId)} {name : String} {names : List String} {node : Node}
    (found : context.graph.find? name = some node) :
    context.tryEach memory frame place tried last (name :: names) =
      match memory.eligible? found with
      | none => context.tryEach memory frame place tried last names
      | some eligible => context.recognize frame node >>= fun reco =>
        if reco.isHit then pure (.hit (place name) eligible reco)
        else context.tryEach memory frame place true (some (node.name, reco.id)) names := by
  rw [tryEach]
  split
  · rename_i unknown
    exact nomatch found.symm.trans unknown
  · rename_i node' found'
    obtain rfl : node = node' := Option.some.inj (found.symm.trans found')
    rfl

/-- Of a list of which some names were seen before, a round tries the first occurrences of
the others. -/
theorem tryFrom_eq (memory : Memory) (frame : Frame) (place : String → Nat)
    (candidates : List String) (position : Nat) (seen : List String) (tried : Bool)
    (last : Option (String × RecoId))
    (stands : ∀ name ∈ candidates, name ∉ seen →
      place name = position + candidates.idxOf name) :
    context.tryFrom memory frame position seen tried last candidates =
      context.tryEach memory frame place tried last
        (candidates.filter fun name => name ∉ seen).eraseDups := by
  induction candidates generalizing position seen tried last with
  | nil => rfl
  | cons name names ih =>
    have later : ∀ other ∈ names, other ≠ name → other ∉ seen →
        place other = position + 1 + names.idxOf other := by
      intro other listed differs unseen
      rw [stands other (List.mem_cons_of_mem name listed) unseen,
        List.idxOf_cons_ne _ (Ne.symm differs)]
      omega
    unfold tryFrom
    split
    · rename_i old
      rw [List.filter_cons_of_neg (by simpa using old)]
      refine ih _ _ _ _ fun other listed unseen => later other listed ?_ unseen
      rintro rfl
      exact unseen old
    · rename_i new
      have here : place name = position := by
        rw [stands name List.mem_cons_self new, List.idxOf_cons_self, Nat.add_zero]
      have rest : (names.filter fun other => other ∉ seen).filter (fun other => !other == name) =
          names.filter fun other => other ∉ name :: seen := by
        rw [List.filter_filter]
        refine List.filter_congr fun other _ => Bool.eq_iff_iff.mpr ?_
        simp
      have next := fun tried last => ih (position + 1) (name :: seen) tried last
        fun other listed unseen => later other listed
          (fun same => unseen (same ▸ List.mem_cons_self))
          (fun old => unseen (List.mem_cons_of_mem name old))
      rw [List.filter_cons_of_pos (by simpa using new), List.eraseDups_cons, rest]
      split
      · rename_i unknown
        rw [context.tryEach_unknown unknown]
      · rename_i node found
        rw [context.tryEach_known found]
        cases memory.eligible? found with
        | none => exact next tried last
        | some eligible => simp only [next, here]

/-- **A round tries the first occurrences of the candidates.** -/
theorem tryFrom_eq_tryEach (memory : Memory) (frame : Frame) (candidates : List String)
    (last : Option (String × RecoId)) :
    context.tryFrom memory frame 0 [] false last candidates =
      context.tryEach memory frame candidates.idxOf false last candidates.eraseDups := by
  rw [tryFrom_eq context memory frame candidates.idxOf candidates 0 [] false last
    fun name _ _ => (Nat.zero_add _).symm]
  simp

end RunContext

/-- The tidy node may be looked for too. -/
def Memory.Eligible.tidy {graph : Graph} {memory : Memory} (eligible : Eligible graph memory) :
    Eligible graph.tidy memory where
  node := eligible.node.tidy
  found := by
    show graph.tidy.find? eligible.node.name = some eligible.node.tidy
    rw [Graph.find?_tidy, eligible.found, Option.map_some]
  enabled := eligible.enabled
  below := eligible.below

theorem Memory.eligible?_tidy {graph : Graph} (memory : Memory) {name : String} {node : Node}
    (found : graph.find? name = some node) (found' : graph.tidy.find? name = some node.tidy) :
    memory.eligible? found' = (memory.eligible? found).map Eligible.tidy := by
  by_cases able : node.enabled = true ∧ memory.hitsOf node.name < node.maxHit
  · have able' : node.tidy.enabled = true ∧ memory.hitsOf node.tidy.name < node.tidy.maxHit := able
    rw [eligible?, eligible?, dif_pos able', dif_pos able]
    rfl
  · have unable' : ¬(node.tidy.enabled = true ∧
        memory.hitsOf node.tidy.name < node.tidy.maxHit) := able
    rw [eligible?, eligible?, dif_neg unable', dif_neg able]
    rfl

/-- Two rounds came to the same: to a hit on a node and on the tidy node, of which both or
neither stand before the interrupts. -/
inductive Round.Tidies (interruptAt interruptAt' : Nat) {graph : Graph} {memory : Memory} :
    Round graph memory → Round graph.tidy memory → Prop where
  | hit {position position' : Nat} (node : Memory.Eligible graph memory) (reco : RecoResult)
      (early : position' < interruptAt' ↔ position < interruptAt) :
      Tidies interruptAt interruptAt' (.hit position node reco) (.hit position' node.tidy reco)
  | unknown (name : String) : Tidies interruptAt interruptAt' (.unknown name) (.unknown name)
  | missed (tried : Bool) (last : Option (String × RecoId)) :
      Tidies interruptAt interruptAt' (.missed tried last) (.missed tried last)

/-- Two scans came to the same, as rounds do. -/
inductive Scan.Tidies (interruptAt interruptAt' : Nat) {graph : Graph} {memory : Memory} :
    Scan graph memory → Scan graph.tidy memory → Prop where
  | hit {position position' : Nat} (node : Memory.Eligible graph memory) (reco : RecoResult)
      (early : position' < interruptAt' ↔ position < interruptAt) :
      Tidies interruptAt interruptAt' (.hit position node reco) (.hit position' node.tidy reco)
  | missed (last : Option (String × RecoId)) :
      Tidies interruptAt interruptAt' (.missed last) (.missed last)
  | exhausted : Tidies interruptAt interruptAt' .exhausted .exhausted
  | stopped : Tidies interruptAt interruptAt' .stopped .stopped
  | unknown (name : String) : Tidies interruptAt interruptAt' (.unknown name) (.unknown name)
  | crashed : Tidies interruptAt interruptAt' .crashed .crashed
  | unfinished : Tidies interruptAt interruptAt' .unfinished .unfinished

namespace RunContext

variable (context : RunContext) {candidates candidates' : List String}
  {interruptAt interruptAt' : Nat}

/-- Candidates that are tried in the same order, wherever they stand. -/
theorem tryEach_tidy (memory : Memory) (frame : Frame) {place place' : String → Nat}
    (tried : Bool) (last : Option (String × RecoId)) (names : List String)
    (early : ∀ name ∈ names, (place' name < interruptAt' ↔ place name < interruptAt)) :
    Tidies (Round.Tidies interruptAt interruptAt')
      (context.tryEach memory frame place tried last names)
      (context.tidy.tryEach memory frame place' tried last names) := by
  induction names generalizing tried last with
  | nil => exact .pure (.missed tried last)
  | cons name names ih =>
    have later := fun tried last =>
      ih tried last fun other listed => early other (List.mem_cons_of_mem name listed)
    have finds : context.tidy.graph.find? name = (context.graph.find? name).map Node.tidy :=
      context.graph.find?_tidy name
    cases found : context.graph.find? name with
    | none =>
      rw [found] at finds
      rw [context.tryEach_unknown found, context.tidy.tryEach_unknown finds]
      exact .pure (.unknown name)
    | some node =>
      rw [found] at finds
      rw [context.tryEach_known found, context.tidy.tryEach_known finds,
        memory.eligible?_tidy found finds]
      cases memory.eligible? found with
      | none => exact later tried last
      | some eligible =>
        refine .after (context.recognize_tidy frame node) fun reco => ?_
        split
        · exact .pure (.hit eligible reco (early name List.mem_cons_self))
        · exact later true _

/-- One round over lists with the same first occurrences. -/
theorem tryAll_tidy (memory : Memory) (last : Option (String × RecoId))
    (same : SameFirsts candidates interruptAt candidates' interruptAt') :
    Tidies (Option.Rel (Round.Tidies interruptAt interruptAt'))
      (context.tryAll memory candidates last) (context.tidy.tryAll memory candidates' last) := by
  refine .after (kept_guised.capture context.controller) fun reply => ?_
  match reply with
  | .crashed => exact .pure .none
  | .returned none => exact .pure (.some (.missed true last))
  | .returned (some frame) =>
    dsimp only
    rw [tryFrom_eq_tryEach, tryFrom_eq_tryEach, same.firsts]
    refine .bind (context.tryEach_tidy memory frame false last candidates.eraseDups ?_)
      fun round round' agree => .pure (.some agree)
    exact fun name listed => same.early name (List.mem_eraseDups.mp listed)

theorem betweenRounds_tidy (owner : Node) (deadline round : Nat) :
    Tidies Eq (context.betweenRounds owner deadline round)
      (context.tidy.betweenRounds owner.tidy deadline round) := by
  refine .after kept_guised.now fun time => ?_
  split
  · exact .pure rfl
  · exact .after kept_guised.now fun _ => .after (kept_guised.sleep _ _) fun _ => .pure rfl

/-- Lists with the same first occurrences hold interrupts alone, or neither does. -/
theorem giveUp_tidy {graph : Graph} {memory : Memory} (last : Option (String × RecoId))
    (same : SameFirsts candidates interruptAt candidates' interruptAt')
    (something : candidates ≠ []) :
    (giveUp interruptAt last : Scan graph memory).Tidies interruptAt interruptAt'
      (giveUp interruptAt' last) := by
  unfold giveUp
  simp only [same.zero_iff something]
  split
  · exact .exhausted
  · exact .missed last

theorem scanRounds_tidy (memory : Memory) (owner : Node) (deadline patience : Nat)
    (last : Option (String × RecoId))
    (same : SameFirsts candidates interruptAt candidates' interruptAt')
    (something : candidates ≠ []) :
    Tidies (Scan.Tidies interruptAt interruptAt')
      (context.scanRounds memory owner candidates interruptAt deadline patience last)
      (context.tidy.scanRounds memory owner.tidy candidates' interruptAt' deadline patience
        last) := by
  induction patience generalizing last with
  | zero => exact .pure .unfinished
  | succ patience ih =>
    refine .after (kept_guised.isStopped _) fun stopped => ?_
    split
    · exact .pure .stopped
    · refine .after kept_guised.now fun start => ?_
      refine .bind (context.tryAll_tidy memory last same) fun round round' agree => ?_
      cases agree with
      | none => exact .pure .crashed
      | some agree =>
        cases agree with
        | hit node reco early => exact .pure (.hit node reco early)
        | unknown name => exact .pure (.unknown name)
        | missed tried last =>
          cases tried with
          | false => exact .pure (giveUp_tidy last same something)
          | true =>
            refine .after (context.betweenRounds_tidy owner deadline start) fun goesOn => ?_
            match goesOn with
            | none => exact .pure (giveUp_tidy last same something)
            | some false => exact .pure .stopped
            | some true => exact ih last

/-- **Looking for candidates with the same first occurrences comes to the same.** -/
theorem scan_tidy (memory : Memory) (owner : Node)
    (same : SameFirsts candidates interruptAt candidates' interruptAt')
    (something : candidates ≠ []) :
    Tidies (Scan.Tidies interruptAt interruptAt')
      (context.scan memory owner candidates interruptAt)
      (context.tidy.scan memory owner.tidy candidates' interruptAt') :=
  .after kept_guised.now fun _ =>
    context.scanRounds_tidy memory owner _ context.patience none same something

end RunContext

/-! ## Turns -/

/-- The walk with another list of candidates. -/
abbrev Walk.relist (walk : Walk) (candidates : List String) (interruptAt : Nat) : Walk :=
  { walk with candidates, interruptAt }

/-- Two turns came to the same end, or both walks go on, with candidates that have the same
first occurrences. -/
inductive Turn.Tidies {graph : Graph} {walk walk' : Walk} :
    Turn graph walk → Turn graph.tidy walk' → Prop where
  | finished (memory : Memory) (result : RunResult) :
      Tidies (.finished memory result) (.finished memory result)
  | next {next : Walk} {closer : next.Closer graph walk} {candidates : List String}
      {interruptAt : Nat} {closer' : (next.relist candidates interruptAt).Closer graph.tidy walk'}
      (same : SameFirsts next.candidates next.interruptAt candidates interruptAt) :
      Tidies (.next next closer) (.next (next.relist candidates interruptAt) closer')

namespace RunContext

variable (context : RunContext) (walk : Walk) {candidates : List String} {interruptAt : Nat}

theorem resume_tidy (nothing : walk.candidates = []) (nothing' : candidates = []) :
    (context.resume walk nothing).Tidies
      (context.tidy.resume (walk.relist candidates interruptAt) nothing') := by
  have finds : ∀ name, context.tidy.graph.find? name =
      (context.graph.find? name).map Node.tidy := context.graph.find?_tidy
  obtain ⟨⟨checkpoints, interrupted, hits⟩, owner, names, position, recovering⟩ := walk
  cases interrupted with
  | nil => exact .finished _ _
  | cons name interrupted =>
    unfold resume
    dsimp only
    rw [finds]
    cases context.graph.find? name with
    | none => exact .finished _ _
    | some node => exact .next (Memory.followers_tidy _ node)

theorem afterMiss_tidy (owner : Node) (last : Option (String × RecoId)) :
    Tidies Turn.Tidies (context.afterMiss walk owner last)
      (context.tidy.afterMiss (walk.relist candidates interruptAt) owner.tidy last) := by
  have empty : owner.tidy.onError.isEmpty = owner.onError.isEmpty := isEmpty_eraseDups _
  unfold afterMiss
  dsimp only
  rw [empty]
  refine .after (guised_step _ _) fun visit => .after (context.recordVisit_tidy _) fun _ => ?_
  split
  · split
    · exact .pure (.finished _ _)
    · exact .pure (.next owner.onError_tidy)
  · exact .pure (.finished _ _)

/-- A hit is an interrupt in both lists or in neither. -/
theorem memoryAfterHit_tidy {position position' : Nat} (node : Node)
    (early : position' < interruptAt ↔ position < walk.interruptAt) :
    memoryAfterHit (walk.relist candidates interruptAt) position' node.tidy =
      memoryAfterHit walk position node := by
  have late : interruptAt ≤ position' ↔ walk.interruptAt ≤ position := by
    rw [← Nat.not_lt, ← Nat.not_lt, early]
  show (if interruptAt ≤ position' ∨ node.isSub = true then _ else _) = _
  simp only [late]
  rfl

theorem afterHit_tidy {position position' : Nat}
    (hit : Memory.Eligible context.graph walk.memory) (reco : RecoResult)
    (early : position' < interruptAt ↔ position < walk.interruptAt) :
    Tidies Turn.Tidies (context.afterHit walk position hit reco)
      (context.tidy.afterHit (walk.relist candidates interruptAt) position' hit.tidy reco) := by
  have memory : memoryAfterHit (walk.relist candidates interruptAt) position' hit.tidy.node =
      memoryAfterHit walk position hit.node := memoryAfterHit_tidy walk hit.node early
  have empty : hit.tidy.node.onError.isEmpty = hit.node.onError.isEmpty := isEmpty_eraseDups _
  unfold afterHit
  dsimp only
  simp only [memory, empty]
  refine .after (guised_step _ _) fun visit => ?_
  refine .after (context.act_tidy visit hit.node reco) fun acted => ?_
  cases acted with
  | unfinished => exact .pure (.finished _ _)
  | notStarted => exact .after (context.recordVisit_tidy _) fun _ => .pure (.finished _ _)
  | done action success =>
    refine .after (context.recordVisit_tidy _) fun _ => ?_
    split
    · exact .pure (.next (Memory.followers_tidy _ hit.node))
    · split
      · exact .pure (.finished _ _)
      · split
        · exact .pure (.finished _ _)
        · exact .pure (.next hit.node.onError_tidy)

theorem look_tidy (something : walk.candidates ≠ []) (something' : candidates ≠ [])
    (same : SameFirsts walk.candidates walk.interruptAt candidates interruptAt) :
    Tidies Turn.Tidies (context.look walk something)
      (context.tidy.look (walk.relist candidates interruptAt) something') := by
  have finds : context.tidy.graph.find? walk.owner =
      (context.graph.find? walk.owner).map Node.tidy := context.graph.find?_tidy walk.owner
  unfold look
  dsimp only
  rw [finds]
  cases context.graph.find? walk.owner with
  | none => exact .pure (.finished _ _)
  | some owner =>
    refine .bind (context.scan_tidy walk.memory owner same something) fun scan scan' agree => ?_
    cases agree with
    | hit node reco early => exact context.afterHit_tidy walk node reco early
    | missed last => exact context.afterMiss_tidy walk owner last
    | exhausted => exact .pure (.next ⟨rfl, fun _ listed => nomatch listed⟩)
    | stopped | unknown | crashed | unfinished => exact .pure (.finished _ _)

/-- A turn with candidates that have the same first occurrences. -/
theorem turn_tidy (same : SameFirsts walk.candidates walk.interruptAt candidates interruptAt) :
    Tidies Turn.Tidies (context.turn walk)
      (context.tidy.turn (walk.relist candidates interruptAt)) := by
  refine .after (kept_guised.isStopped _) fun stopped => ?_
  split
  · exact .pure (.finished _ _)
  · by_cases nothing : walk.candidates = []
    · have nothing' := same.nil_iff.mpr nothing
      rw [dif_pos nothing, dif_pos nothing']
      exact .pure (context.resume_tidy walk nothing nothing')
    · have something' := mt same.nil_iff.mp nothing
      rw [dif_neg nothing, dif_neg something']
      exact context.look_tidy walk nothing something' same

/-! ## Runs -/

theorem walkOn_tidy (walk : Walk) (candidates : List String) (interruptAt : Nat)
    (same : SameFirsts walk.candidates walk.interruptAt candidates interruptAt) :
    Tidies Eq (context.walkOn walk)
      (context.tidy.walkOn (walk.relist candidates interruptAt)) := by
  unfold walkOn
  refine .bind (context.turn_tidy walk same) fun turn turn' agree => ?_
  cases agree with
  | finished memory result => exact .pure rfl
  | @next next closer names position closer' same => exact walkOn_tidy next names position same
termination_by walk.left context.graph
decreasing_by exact closer

/-- **A run over the tidy graph asks the same about tidy nodes.** -/
theorem run_tidy (memory : Memory) (entry : String) :
    context.tidy.run memory entry = (context.run memory entry).reword tidying :=
  rewords_iff.mp (context.walkOn_tidy _ [entry] 1 ⟨rfl, fun _ _ => Iff.rfl⟩)

theorem recognizeOnce_tidy (entry : String) :
    context.tidy.recognizeOnce entry = (context.recognizeOnce entry).reword tidying :=
  Node.guise_tidy.recognizeOnce (context.graph.find?_tidy entry)

theorem actOnce_tidy (entry : String) (box : Rect) :
    context.tidy.actOnce entry box = (context.actOnce entry box).reword tidying :=
  Node.guise_tidy.actOnce (context.graph.find?_tidy entry) box

/-- **Names that are listed twice do no harm.** Let the outside read no list of a node, so
that about a node it answers what it answers about the tidy node. Whatever it answers and
whoever interferes, the run over the tidy graph then comes to the same result as the run over
the graph, remembers the same (the nodes that are still interrupted and what labels lead to
among it), leaves the same engine (the identities drawn, the visits recorded and the events
published) and has asked the same in the same order, of tidy nodes; and so do the runs of one
node. -/
theorem runs_tidy {ω : Type} (surroundings : Surroundings outside Engine ω) (engine : Engine)
    (world : ω) :
    (∀ memory entry,
      surroundings.logging.carry (context.tidy.run memory entry) (engine, world, []) =
        Surroundings.rewordLog tidying ((surroundings.reworded tidying).logging.carry
          (context.run memory entry) (engine, world, []))) ∧
      (∀ entry,
        surroundings.logging.carry (context.tidy.recognizeOnce entry) (engine, world, []) =
          Surroundings.rewordLog tidying ((surroundings.reworded tidying).logging.carry
            (context.recognizeOnce entry) (engine, world, []))) ∧
      ∀ entry box,
        surroundings.logging.carry (context.tidy.actOnce entry box) (engine, world, []) =
          Surroundings.rewordLog tidying ((surroundings.reworded tidying).logging.carry
            (context.actOnce entry box) (engine, world, [])) := by
  have courses : ∀ {α : Type} (activity : Acting α),
      surroundings.logging.carry (activity.reword tidying) (engine, world, []) =
        Surroundings.rewordLog tidying ((surroundings.reworded tidying).logging.carry
          activity (engine, world, [])) :=
    fun activity => surroundings.carry_logging_reword tidying activity engine world
  refine ⟨fun memory entry => ?_, fun entry => ?_, fun entry box => ?_⟩
  · rw [context.run_tidy]
    exact courses _
  · rw [context.recognizeOnce_tidy]
    exact courses _
  · rw [context.actOnce_tidy]
    exact courses _

end RunContext

end ScreenPilot
