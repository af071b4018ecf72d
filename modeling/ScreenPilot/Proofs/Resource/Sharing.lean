import ScreenPilot.Proofs.Activity.Moments
import ScreenPilot.Proofs.Resource.Bases

/-!
# Loads that share a resource

Any number of loads of one resource may be under way at once. They move in any order, and a load
may begin while another one waits for its caller's next path; so what is proved of all that a
shared resource leads to is proved of all interleavings, and of loads that their callers begin
inside of others.

Taking the base and putting a graph in place are two moves, and between them other loads may put
theirs in place. What those add the load does not know of. So a name that a load brought can be
lost, though both loads end well (`leads_overlapped`). It can be lost in no other way: it is there,
or a load overwrote what was put in place since it took its base (`there_or_overwritten`). What was
there before all loads stays, and so does everything if no two loads are under way at once
(`there_of_one_at_a_time`).
-/

set_option autoImplicit false

namespace ScreenPilot

open Activity

namespace Resource

/-- What is left of a load, and the documents that it was given so far. -/
structure Load where
  rest : Loading (Outcome Unit)
  documents : List Json

namespace Load

/-- A load at its beginning. -/
inductive Begins : Load → Prop where
  | json (document : Json) : Begins ⟨loadJson document, [document]⟩
  | paths (paths : List String) : Begins ⟨loadPaths paths, []⟩

/-- One move of a load. -/
inductive Moves : Load → Resource → Load → Resource → Prop where
  | step {rest rest' : Loading (Outcome Unit)} {before after : Resource} (documents : List Json)
      (happens : rest.Happens (.step before after) rest') :
      Moves ⟨rest, documents⟩ before ⟨rest', documents⟩ after
  | told {rest rest' : Loading (Outcome Unit)} {question : LoadQuestion}
      {answer : LoadAnswer question} (documents : List Json) (resource : Resource)
      (happens : rest.Happens (.call question (some answer)) rest') :
      Moves ⟨rest, documents⟩ resource ⟨rest', documents ++ question.documents answer⟩ resource

/-- The load has come to an end. -/
def IsOver (load : Load) : Prop := ∃ outcome, load.rest = .done outcome

theorem Moves.not_isOver {load load' : Load} {before after : Resource}
    (moves : load.Moves before load' after) : ¬ load.IsOver := by
  rintro ⟨outcome, ended⟩
  cases moves with
  | step documents happens =>
    obtain rfl := ended
    exact nomatch happens
  | told documents resource happens =>
    obtain rfl := ended
    exact nomatch happens

/-- The load has come so far. -/
def Reaches (load : Load) (stage : Stage) : Prop :=
  load.rest.Tracks Stage.Goes Stage.Last (stage, load.documents)

theorem Begins.reaches {load : Load} (begins : load.Begins) : load.Reaches .begun := by
  cases begins with
  | json document => exact tracks_loadJson document
  | paths paths => exact tracks_loadPaths paths

/-- What a move makes of the stage of a load and of the graph. -/
inductive Passes (before after : Resource) (documents documents' : List Json) :
    Stage → Stage → Prop where
  | keeps (stage : Stage) (same : after.graph = before.graph) (still : documents' = documents) :
      Passes before after documents documents' stage stage
  | takes (same : after.graph = before.graph) :
      Passes before after documents documents' .begun (.based before.graph)
  | told (base : Graph) (same : after.graph = before.graph) :
      Passes before after documents documents' (.based base) (.based base)
  | puts (base : Graph) (covers : base.Covers documents after.graph)
      (still : documents' = documents) :
      Passes before after documents documents' (.based base) .put

/-- A load leaves the graph alone, or it puts one in place that has the names of its base and of
its documents. -/
theorem Passes.graph_cases {before after : Resource} {documents documents' : List Json}
    {stage stage' : Stage} (passes : Passes before after documents documents' stage stage') :
    after.graph = before.graph ∨
      ∃ base, stage = .based base ∧ base.Covers documents after.graph := by
  cases passes with
  | keeps stage same still => exact .inl same
  | takes same => exact .inl same
  | told base same => exact .inl same
  | puts base covers still => exact .inr ⟨base, rfl, covers⟩

/-- **A load moves from stage to stage.** -/
theorem Reaches.moves {load load' : Load} {stage : Stage} {before after : Resource}
    (reaches : load.Reaches stage) (moves : load.Moves before load' after) :
    ∃ stage', Passes before after load.documents load'.documents stage stage' ∧
      load'.Reaches stage' := by
  cases moves with
  | step documents happens =>
    obtain ⟨phase, goes, tracks⟩ := Tracks.happens reaches happens
    cases goes with
    | keeps same => exact ⟨_, .keeps _ same rfl, tracks⟩
    | takes same => exact ⟨_, .takes same, tracks⟩
    | puts covers => exact ⟨_, .puts _ covers rfl, tracks⟩
  | told documents resource happens =>
    obtain ⟨phase, goes, tracks⟩ := Tracks.happens reaches happens
    cases goes with
    | told => exact ⟨_, .told _ rfl, tracks⟩

/-- A load that has ended well has put a graph in place. -/
theorem Reaches.put {load : Load} {stage : Stage} (reaches : load.Reaches stage)
    (ended : load.rest = .done (.ok ())) : stage = .put := by
  unfold Reaches at reaches
  rw [ended] at reaches
  exact reaches rfl

end Load

/-- A resource and the loads of it that were begun. -/
structure Sharing where
  resource : Resource
  loads : List Load

namespace Sharing

/-- One move on a shared resource. A load of a position makes it, or nobody of them does. -/
inductive Step : Option Nat → Sharing → Sharing → Prop where
  | begin {sharing : Sharing} {load : Load} (begins : load.Begins) :
      Step none sharing { sharing with loads := sharing.loads ++ [load] }
  | load {sharing : Sharing} {index : Nat} {load load' : Load} {resource : Resource}
      (found : sharing.loads[index]? = some load)
      (moves : load.Moves sharing.resource load' resource) :
      Step (some index) sharing ⟨resource, sharing.loads.set index load'⟩
  /-- Someone stops the loads, or changes plug-ins. -/
  | aside {sharing : Sharing} {resource : Resource} (same : Same sharing.resource resource) :
      Step none sharing { sharing with resource }

/-- One move leads there. -/
def Goes (before after : Sharing) : Prop := ∃ mover, Step mover before after

/-- Any number of moves leads there. -/
abbrev Leads : Sharing → Sharing → Prop := Relation.ReflTransGen Goes

/-- One move leads there, in which the load at a position leaves the graph alone. -/
def Spares (index : Nat) (before after : Sharing) : Prop :=
  ∃ mover, Step mover before after ∧
    (mover = some index → after.resource.graph = before.resource.graph)

/-- Moves lead there in which the load at a position leaves the graph alone. -/
abbrev LeadsSparing (index : Nat) : Sharing → Sharing → Prop := Relation.ReflTransGen (Spares index)

theorem Spares.goes {index : Nat} {before after : Sharing} (spares : before.Spares index after) :
    before.Goes after := by
  obtain ⟨mover, step, -⟩ := spares
  exact ⟨mover, step⟩

/-- The name is that of a node. -/
def Has (sharing : Sharing) (name : String) : Prop := sharing.resource.graph.contains name = true

theorem has_iff_of_same {sharing sharing' : Sharing}
    (same : sharing'.resource.graph = sharing.resource.graph) {name : String} :
    sharing'.Has name ↔ sharing.Has name := by
  unfold Has
  rw [same]

/-- Only a load changes the graph. -/
theorem Step.graph_of_none {before after : Sharing} (step : Step none before after) :
    after.resource.graph = before.resource.graph := by
  cases step with
  | begin => rfl
  | aside same => exact same.graph

/-! ## What is known of the loads -/

/-- How a load has come to its stage. -/
def Past (first sharing : Sharing) (index : Nat) (load : Load) : Stage → Prop
  | .begun => True
  | .based base =>
    (∀ name, first.Has name → base.contains name = true) ∧
      ∃ taken based, first.Leads taken ∧ Step (some index) taken based ∧
        taken.resource.graph = base ∧ based.resource.graph = base ∧
        based.LeadsSparing index sharing
  | .put =>
    ∃ placed : Sharing, first.Leads placed ∧ placed.Leads sharing ∧
      ∀ document ∈ load.documents, ∀ name, Graph.Defines document name → placed.Has name

/-- What is known of a shared resource that another one without loads leads to. -/
structure Known (first sharing : Sharing) : Prop where
  /-- What was there at first still is. -/
  stays : ∀ name, first.Has name → sharing.Has name
  loads : ∀ index load, sharing.loads[index]? = some load →
    ∃ stage, load.Reaches stage ∧ first.Past sharing index load stage

variable {first before after last : Sharing}

/-- The past of a load stays its past. -/
theorem Past.spared {index : Nat} {load : Load} {stage : Stage}
    (past : first.Past before index load stage) (spares : before.Spares index after) :
    first.Past after index load stage := by
  cases stage with
  | begun => trivial
  | based base =>
    obtain ⟨stays, taken, based, leads, takes, found, same, later⟩ := past
    exact ⟨stays, taken, based, leads, takes, found, same, later.tail spares⟩
  | put =>
    obtain ⟨placed, leads, later, has⟩ := past
    exact ⟨placed, leads, later.tail spares.goes, has⟩

/-- A load that moves has a past. -/
theorem Past.moved {index : Nat} {load load' : Load} {stage stage' : Stage}
    (past : first.Past before index load stage) (leads : first.Leads before)
    (stays : ∀ name, first.Has name → before.Has name) (step : Step (some index) before after)
    (passes : Load.Passes before.resource after.resource load.documents load'.documents
      stage stage') :
    first.Past after index load' stage' := by
  cases passes with
  | keeps stage same still =>
    have later := past.spared ⟨_, step, fun _ => same⟩
    cases stage with
    | begun => trivial
    | based base => exact later
    | put =>
      obtain ⟨placed, leads, leads', has⟩ := later
      exact ⟨placed, leads, leads', still ▸ has⟩
  | takes same => exact ⟨stays, before, after, leads, step, rfl, same, .refl⟩
  | told base same => exact past.spared ⟨_, step, fun _ => same⟩
  | puts base covers still =>
    refine ⟨after, leads.tail ⟨_, step⟩, .refl, fun document member name defines => ?_⟩
    exact (covers name).mpr (.inr ⟨document, still ▸ member, defines⟩)

/-- **Whoever moves, as much is known as before.** -/
theorem Known.goes (known : first.Known before) (leads : first.Leads before)
    (goes : before.Goes after) : first.Known after := by
  obtain ⟨mover, step⟩ := goes
  have others : ∀ index load, before.loads[index]? = some load → mover ≠ some index →
      ∃ stage, load.Reaches stage ∧ first.Past after index load stage := by
    intro index load found other
    obtain ⟨stage, reaches, past⟩ := known.loads index load found
    exact ⟨stage, reaches, past.spared ⟨mover, step, fun same => absurd same other⟩⟩
  cases step with
  | @begin _ load begins =>
    refine ⟨known.stays, fun index load' found => ?_⟩
    by_cases isLast : index = before.loads.length
    · rw [isLast, List.getElem?_concat_length] at found
      cases found
      exact ⟨.begun, begins.reaches, trivial⟩
    · have within : index < before.loads.length := by
        have bound := (List.getElem?_eq_some_iff.mp found).1
        rw [List.length_append, List.length_singleton] at bound
        omega
      rw [List.getElem?_append_left within] at found
      exact others index load' found nofun
  | @load _ moved load load' resource found moves =>
    obtain ⟨stage, reaches, past⟩ := known.loads moved load found
    obtain ⟨stage', passes, reaches'⟩ := reaches.moves moves
    refine ⟨fun name has => ?_, fun index load'' found' => ?_⟩
    · rcases passes.graph_cases with same | ⟨base, rfl, covers⟩
      · exact (has_iff_of_same same).mpr (known.stays name has)
      · exact (covers name).mpr (.inl (past.1 name has))
    · by_cases isMoved : index = moved
      · subst isMoved
        have within := (List.getElem?_eq_some_iff.mp found).1
        rw [List.getElem?_set_self within] at found'
        cases found'
        exact ⟨stage', reaches', past.moved leads known.stays (.load found moves) passes⟩
      · rw [List.getElem?_set_ne fun same => isMoved same.symm] at found'
        exact others index load'' found' fun same => isMoved (Option.some.inj same).symm
  | aside same =>
    exact ⟨fun name has => (has_iff_of_same same.graph).mpr (known.stays name has),
      fun index load found => others index load found nofun⟩

theorem Leads.known (fresh : first.loads = []) (leads : first.Leads last) : first.Known last := by
  induction leads with
  | refl =>
    refine ⟨fun _ has => has, fun index load found => ?_⟩
    rw [fresh] at found
    exact nomatch found
  | tail leads goes known => exact known.goes leads goes

/-! ## Names that are lost -/

/-- One load takes its base, another one puts the name in place, and then the first one puts in
place a graph that has the names of its base and of its documents only. -/
structure Overwrites (first last : Sharing) (name : String) (index other : Nat)
    (taken based absent present still lost : Sharing) (load : Load) : Prop where
  starts : first.Leads taken
  takes : Step (some index) taken based
  waits : based.LeadsSparing index absent
  misses : ¬ absent.Has name
  others : other ≠ index
  brings : Step (some other) absent present
  has : present.Has name
  goesOn : present.LeadsSparing index still
  found : still.loads[index]? = some load
  overwrites : Step (some index) still lost
  covers : taken.resource.graph.Covers load.documents lost.resource.graph
  loses : ¬ lost.Has name
  ends : lost.Leads last

/-- The name was overwritten in between. -/
def Overwritten (first last : Sharing) (name : String) : Prop :=
  ∃ index other taken based absent present still lost load,
    Overwrites first last name index other taken based absent present still lost load

/-- A load that changes the graph puts in place what its base and its documents have. -/
theorem Known.puts (known : first.Known before) {index : Nat} (step : Step (some index) before after)
    (changes : after.resource.graph ≠ before.resource.graph) :
    ∃ load base, before.loads[index]? = some load ∧ first.Past before index load (.based base) ∧
      base.Covers load.documents after.resource.graph := by
  cases step with
  | load found moves =>
    obtain ⟨stage, reaches, past⟩ := known.loads _ _ found
    obtain ⟨stage', passes, -⟩ := reaches.moves moves
    rcases passes.graph_cases with same | ⟨base, rfl, covers⟩
    · exact absurd same changes
    · exact ⟨_, base, found, past, covers⟩

/-- **A name that was there and is not was overwritten.** -/
theorem Leads.overwritten {name : String} (fresh : first.loads = []) (leads : first.Leads before)
    (has : before.Has name) (leads' : before.Leads last) (misses : ¬ last.Has name) :
    first.Overwritten last name := by
  -- The last time that it was lost, a load put in place what its base and its documents have.
  obtain ⟨still, lost, toStill, has, ⟨mover, overwrites⟩, loses, ends⟩ :=
    exists_turn leads' (·.Has name) has misses
  have changes : lost.resource.graph ≠ still.resource.graph :=
    fun same => loses ((has_iff_of_same same).mpr has)
  obtain ⟨index, rfl⟩ : ∃ index, mover = some index :=
    Option.ne_none_iff_exists'.mp fun none => changes (none ▸ overwrites).graph_of_none
  obtain ⟨load, base, found, past, covers⟩ :=
    (Leads.known fresh (leads.trans toStill)).puts overwrites changes
  obtain ⟨-, taken, based, starts, takes, rfl, same, waits⟩ := past
  -- The name is not in the base, so another load put it in place since.
  have missing : ¬ based.Has name :=
    fun here => loses ((covers name).mpr (.inl ((has_iff_of_same same).mp here)))
  obtain ⟨absent, present, toAbsent, absent', ⟨mover, brings, spares⟩, came, goesOn⟩ :=
    exists_turn waits (¬ ·.Has name) missing (not_not_intro has)
  have changes' : present.resource.graph ≠ absent.resource.graph :=
    fun same => came fun here => absent' ((has_iff_of_same same).mp here)
  obtain ⟨other, rfl⟩ : ∃ other, mover = some other :=
    Option.ne_none_iff_exists'.mp fun none => changes' (none ▸ brings).graph_of_none
  exact ⟨index, other, taken, based, absent, present, still, lost, load,
    { starts, takes, brings, found, overwrites, covers, loses
      waits := toAbsent
      misses := absent'
      others := fun same => changes' (spares (congrArg some same))
      has := not_not.mp came
      goesOn := Relation.ReflTransGen.mono (fun _ _ goes => goes.1) _ _ goesOn
      ends := Relation.ReflTransGen.mono (fun _ _ goes => goes.1) _ _ ends }⟩

/-- What a load that has ended well was given was there once. -/
theorem Leads.brought (fresh : first.loads = []) (leads : first.Leads last) {load : Load}
    (member : load ∈ last.loads) (ended : load.rest = .done (.ok ())) {document : Json}
    (given : document ∈ load.documents) {name : String} (defines : Graph.Defines document name) :
    ∃ placed : Sharing, first.Leads placed ∧ placed.Leads last ∧ placed.Has name := by
  obtain ⟨index, within, rfl⟩ := List.mem_iff_getElem.mp member
  obtain ⟨stage, reaches, past⟩ :=
    (leads.known fresh).loads index _ (List.getElem?_eq_getElem within)
  obtain rfl := reaches.put ended
  obtain ⟨placed, leads, leads', has⟩ := past
  exact ⟨placed, leads, leads', has document given name defines⟩

/-! ### One load at a time -/

/-- A load that was begun is there, and one that has ended is the same. -/
theorem Goes.persists (goes : before.Goes after) {index : Nat} {load : Load}
    (found : before.loads[index]? = some load) :
    ∃ load', after.loads[index]? = some load' ∧ (load.IsOver → load' = load) := by
  obtain ⟨mover, step⟩ := goes
  have within := (List.getElem?_eq_some_iff.mp found).1
  cases step with
  | begin begins => exact ⟨load, (List.getElem?_append_left within).trans found, fun _ => rfl⟩
  | aside same => exact ⟨load, found, fun _ => rfl⟩
  | @load _ moved load' load'' resource found' moves =>
    by_cases isMoved : index = moved
    · subst isMoved
      obtain rfl := Option.some.inj (found.symm.trans found')
      exact ⟨load'', List.getElem?_set_self within, fun ended => absurd ended moves.not_isOver⟩
    · refine ⟨load, ?_, fun _ => rfl⟩
      exact (List.getElem?_set_ne fun same => isMoved same.symm).trans found

theorem Leads.persists (leads : before.Leads after) {index : Nat} {load : Load}
    (found : before.loads[index]? = some load) :
    ∃ load', after.loads[index]? = some load' ∧ (load.IsOver → load' = load) := by
  induction leads with
  | refl => exact ⟨load, found, fun _ => rfl⟩
  | tail _ goes ih =>
    obtain ⟨load', found', same⟩ := ih
    obtain ⟨load'', found'', same'⟩ := goes.persists found'
    refine ⟨load'', found'', fun ended => ?_⟩
    obtain rfl := same ended
    exact same' ended

/-- A load that moves has not ended. -/
theorem Step.underWay {index : Nat} (step : Step (some index) before after) :
    ∃ load, before.loads[index]? = some load ∧ ¬ load.IsOver := by
  cases step with
  | load found moves => exact ⟨_, found, moves.not_isOver⟩

/-- Of two loads that were begun, one has ended. -/
def OneAtATime (sharing : Sharing) : Prop :=
  ∀ (index other : Nat) (load load' : Load), index ≠ other → sharing.loads[index]? = some load →
    sharing.loads[other]? = some load' → load.IsOver ∨ load'.IsOver

/-- **One load at a time loses nothing.** -/
theorem there_of_one_at_a_time (fresh : first.loads = []) (leads : first.Leads last)
    (oneAtATime : ∀ moment, first.Leads moment → moment.Leads last → moment.OneAtATime)
    {load : Load} (member : load ∈ last.loads) (ended : load.rest = .done (.ok ()))
    {document : Json} (given : document ∈ load.documents) {name : String}
    (defines : Graph.Defines document name) : last.Has name := by
  obtain ⟨placed, toPlaced, fromPlaced, has⟩ := leads.brought fresh member ended given defines
  by_contra misses
  obtain ⟨index, other, taken, based, absent, present, still, lost, overwriter, overwrites⟩ :=
    toPlaced.overwritten fresh has fromPlaced misses
  have toAbsent : based.Leads absent :=
    Relation.ReflTransGen.mono (fun _ _ => Spares.goes) _ _ overwrites.waits
  have toStill : absent.Leads still :=
    .head ⟨_, overwrites.brings⟩
      (Relation.ReflTransGen.mono (fun _ _ => Spares.goes) _ _ overwrites.goesOn)
  have afterTaken : taken.Leads absent := .head ⟨_, overwrites.takes⟩ toAbsent
  have toLast : still.Leads last := .head ⟨_, overwrites.overwrites⟩ overwrites.ends
  -- When the name is put in place, the load that overwrites it is under way as well.
  obtain ⟨begun, found, -⟩ := overwrites.takes.underWay
  obtain ⟨waiting, found', -⟩ := afterTaken.persists found
  obtain ⟨bringer, found'', moving⟩ := overwrites.brings.underWay
  rcases oneAtATime absent (overwrites.starts.trans afterTaken) (toStill.trans toLast) index other
    waiting bringer overwrites.others.symm found' found'' with ended | ended
  · obtain ⟨load', found, same⟩ := toStill.persists found'
    obtain rfl := same ended
    obtain ⟨moved, found', moving⟩ := overwrites.overwrites.underWay
    obtain rfl := Option.some.inj (found.symm.trans found')
    exact absurd ended moving
  · exact absurd ended moving

/-! ### Loads that overlap -/

/-- A load runs while nobody else moves. -/
abbrev Runs : Load × Resource → Load × Resource → Prop :=
  Relation.ReflTransGen fun before after => before.1.Moves before.2 after.1 after.2

theorem Runs.cons {load load' load'' : Load} {resource resource' resource'' : Resource}
    (moves : load.Moves resource load' resource') (runs : Runs (load', resource') (load'', resource'')) :
    Runs (load, resource) (load'', resource'') := .head moves runs

/-- What a load does while nobody else moves is done on a shared resource, if its moves are. -/
theorem leads_of_runs {goes : Sharing → Sharing → Prop}
    (moves : ∀ {sharing : Sharing} {index : Nat} {load load' : Load} {resource : Resource},
      sharing.loads[index]? = some load → load.Moves sharing.resource load' resource →
        goes sharing ⟨resource, sharing.loads.set index load'⟩)
    (earlier later : List Load) {load load' : Load} {resource resource' : Resource}
    (runs : Runs (load, resource) (load', resource')) :
    Relation.ReflTransGen goes ⟨resource, earlier ++ load :: later⟩
      ⟨resource', earlier ++ load' :: later⟩ := by
  suffices toThere : ∀ there, Runs (load, resource) there →
      Relation.ReflTransGen goes ⟨resource, earlier ++ load :: later⟩
        ⟨there.2, earlier ++ there.1 :: later⟩ from
    toThere _ runs
  intro there runs
  induction runs with
  | refl => exact .refl
  | @tail between there _ moved ih =>
    have found : (earlier ++ between.1 :: later)[earlier.length]? = some between.1 := by simp
    have step : goes ⟨between.2, earlier ++ between.1 :: later⟩ _ := moves found moved
    rw [List.set_append_right _ _ (Nat.le_refl _), Nat.sub_self, List.set_cons_zero] at step
    exact ih.tail step

theorem leads_runs (earlier later : List Load) {load load' : Load} {resource resource' : Resource}
    (runs : Runs (load, resource) (load', resource')) :
    Leads ⟨resource, earlier ++ load :: later⟩ ⟨resource', earlier ++ load' :: later⟩ :=
  leads_of_runs (fun found moves => ⟨_, .load found moves⟩) earlier later runs

/-- A graph is put in place and the load ends well. -/
theorem runs_publish (graph : Graph) (documents : List Json) (resource : Resource) :
    Runs (⟨publish graph >>= fun _ => pure (.ok ()), documents⟩, resource)
      (⟨.done (.ok ()), documents⟩, { resource with graph, loaded := true }) := by
  let last : Loading (Outcome Unit) := do
    Activity.modify fun resource => { resource with loaded := true }
    pure (.ok ())
  have puts : Load.Moves ⟨publish graph >>= fun _ => pure (.ok ()), documents⟩ resource
      ⟨last, documents⟩ { resource with graph } := .step _ (.step _ _ _)
  have ends : Load.Moves ⟨last, documents⟩ { resource with graph } ⟨.done (.ok ()), documents⟩
      { resource with graph, loaded := true } := .step _ (.step _ _ _)
  exact .cons puts (.cons ends .refl)

/-- A document that can be read has been merged with the graph that the load found, and this is
about to be put in place. -/
theorem runs_loadJson {resource : Resource} {document : Json} {patch : Graph}
    (defines : Graph.ofJson resource.defaults document = .ok patch) :
    Runs (⟨loadJson document, [document]⟩, resource)
      (⟨publish (resource.graph.merged patch) >>= fun _ => pure (.ok ()), [document]⟩,
        resource) := by
  let merging : Loading (Outcome Unit) := do
    publish ((← Activity.reads Resource.graph).merged patch)
    pure (.ok ())
  have reads : (loadJson document).Happens (.step resource resource) merging := by
    have happens : (loadJson document).Happens (.step resource resource) _ :=
      .reads Resource.defaults _ resource
    simp only [defines] at happens
    exact happens
  have takes : Load.Moves ⟨merging, [document]⟩ resource
      ⟨publish (resource.graph.merged patch) >>= fun _ => pure (.ok ()), [document]⟩ resource :=
    .step _ (.step _ _ _)
  exact .cons (.step _ reads) (.cons takes .refl)

/-- **Of two loads that overlap, one is lost.** Whatever was loaded before, a load can take its
base before another one puts its graph in place, and put its own in place after it. Both end well,
and what the second document defines is there only if the first one or the base has it. -/
theorem leads_overlapped (sharing : Sharing) {first second : Json} {patch patch' : Graph}
    (defines : Graph.ofJson sharing.resource.defaults first = .ok patch)
    (defines' : Graph.ofJson sharing.resource.defaults second = .ok patch') :
    ∃ last : Sharing, sharing.Leads last ∧
      last.loads = sharing.loads ++
        [⟨.done (.ok ()), [first]⟩, ⟨.done (.ok ()), [second]⟩] ∧
      last.resource.graph = sharing.resource.graph.merged patch := by
  obtain ⟨resource, loads⟩ := sharing
  let waiting : Load := ⟨publish (resource.graph.merged patch) >>= fun _ => pure (.ok ()), [first]⟩
  let between : Resource :=
    { resource with graph := resource.graph.merged patch', loaded := true }
  have takes : Leads ⟨resource, loads⟩ ⟨resource, loads ++ [waiting]⟩ :=
    .head ⟨none, .begin (.json first)⟩ (leads_runs loads [] (runs_loadJson defines))
  have overtakes : Leads ⟨resource, loads ++ [waiting]⟩
      ⟨between, loads ++ [waiting] ++ [⟨.done (.ok ()), [second]⟩]⟩ :=
    .head ⟨none, .begin (.json second)⟩
      (leads_runs (loads ++ [waiting]) [] ((runs_loadJson defines').trans (runs_publish _ _ _)))
  have puts : Leads ⟨between, loads ++ waiting :: [⟨.done (.ok ()), [second]⟩]⟩
      ⟨{ between with graph := resource.graph.merged patch, loaded := true },
        loads ++ ⟨.done (.ok ()), [first]⟩ :: [⟨.done (.ok ()), [second]⟩]⟩ :=
    leads_runs loads _ (runs_publish _ _ _)
  rw [List.append_assoc] at overtakes
  exact ⟨_, takes.trans (overtakes.trans puts), rfl, rfl⟩

/-- A document with a node of one name. -/
def single (name : String) : Json := .object [(name, .object [])]

theorem ofJson_single {name : String} (plain : Graph.isRemark name = false)
    (defaults : NodeDefaults) :
    Graph.ofJson defaults (single name) =
      .ok (Graph.empty.insert (.ofDefaults name defaults)) := by
  have read : Node.ofJson name (.object []) defaults = .ok (.ofDefaults name defaults) := rfl
  simp [single, Graph.ofJson, Graph.addEntry, plain, read, Except.map]

/-- A resource that has loaded nothing, and nobody who loads it. -/
def unshared : Sharing := ⟨.new default, []⟩

/-- Both documents of two loads were loaded well, and one of them is lost. -/
theorem exists_lost : ∃ last : Sharing, unshared.Leads last ∧
    last.loads = [⟨.done (.ok ()), [single "F"]⟩, ⟨.done (.ok ()), [single "S"]⟩] ∧
    Graph.Defines (single "S") "S" ∧ ¬ last.Has "S" := by
  have plain : Graph.isRemark "F" = false := by simp [Graph.isRemark]
  have plain' : Graph.isRemark "S" = false := by simp [Graph.isRemark]
  obtain ⟨last, leads, loads, graph⟩ :=
    leads_overlapped unshared (ofJson_single plain default) (ofJson_single plain' default)
  refine ⟨last, leads, loads, ⟨plain', _, _, rfl, List.mem_singleton.mpr rfl⟩, ?_⟩
  unfold Has
  rw [graph, Graph.contains_merged, Graph.contains_insert]
  rintro (none | same | none)
  · simp [unshared, new, Graph.contains, Graph.empty] at none
  · exact absurd same (by decide)
  · simp [Graph.contains, Graph.empty] at none

/-! ### What is there in the end -/

/-- **No name is lost unless it is overwritten.** Let loads of a resource move in any order. What
was there before all of them is there. What a load that has ended well brought is there, or
another load put it in place after some load took its base, and this one then put in place what
its base and its own documents have. -/
theorem there_or_overwritten (fresh : first.loads = []) (leads : first.Leads last) :
    (∀ name, first.Has name → last.Has name) ∧
    ∀ load ∈ last.loads, load.rest = .done (.ok ()) →
      ∀ document ∈ load.documents, ∀ name, Graph.Defines document name →
        last.Has name ∨ first.Overwritten last name := by
  refine ⟨(leads.known fresh).stays, fun load member ended document given name defines => ?_⟩
  obtain ⟨placed, toPlaced, fromPlaced, has⟩ := leads.brought fresh member ended given defines
  by_cases here : last.Has name
  · exact .inl here
  · exact .inr (toPlaced.overwritten fresh has fromPlaced here)

/-- A load that overlaps with another one overwrites what this one put in place. -/
theorem overwritten_in_overlap : ∃ last : Sharing, unshared.loads = [] ∧ unshared.Leads last ∧
    unshared.Overwritten last "S" := by
  obtain ⟨last, leads, loads, defines, lost⟩ := exists_lost
  have member : (⟨.done (.ok ()), [single "S"]⟩ : Load) ∈ last.loads := by
    rw [loads]
    simp
  refine ⟨last, rfl, leads, ?_⟩
  exact ((there_or_overwritten rfl leads).2 _ member rfl _ (List.mem_singleton.mpr rfl) "S"
    defines).resolve_left lost

/-- **A node can be lost though all loads of a resource have ended well.** -/
theorem lost_though_loaded : ¬ ∀ first last : Sharing, first.loads = [] → first.Leads last →
    (∀ load ∈ last.loads, load.rest = .done (.ok ())) →
    (∀ name, first.Has name → last.Has name) ∧
    ∀ load ∈ last.loads, ∀ document ∈ load.documents, ∀ name,
      Graph.Defines document name → last.Has name := by
  intro claim
  obtain ⟨last, leads, loads, defines, lost⟩ := exists_lost
  have ended : ∀ load ∈ last.loads, load.rest = .done (.ok ()) := by
    rw [loads]
    simp
  refine lost ((claim unshared last rfl leads ended).2 ⟨.done (.ok ()), [single "S"]⟩ ?_ _
    (List.mem_singleton.mpr rfl) "S" defines)
  rw [loads]
  simp

end Sharing

end Resource

end ScreenPilot
