import ScreenPilot.Proofs.Graph.Closed
import ScreenPilot.Proofs.Graph.Documents
import ScreenPilot.Resource

/-!
# Loads are all or nothing

While the files stay what they are and nobody else loads, a load of paths has one of two ends.
Either every path contributes and no stop was found before any of them; then the graph is
overlaid with what the paths contribute, in their order, and put in place. Or the load is given
up at the first path that fails or before which a stop was found; then the resource is as it was
(`loadPaths_all_or_nothing`).
-/

set_option autoImplicit false

namespace ScreenPilot

open Activity

namespace Resource

/-- Questions about files, as they are asked while loading. -/
def filing : Rewording Files.access loading where
  put := LoadQuestion.file
  back _ answer := answer

/-! ## Stops -/

/-- Whether a stop was found, each time that a path had been given. -/
def stopsFound : List (Activity.Event loading Resource) → List Bool
  | .call (LoadQuestion.nextPath _) _ :: .step found _ :: events =>
    found.stopping :: stopsFound events
  | _ :: events => stopsFound events
  | [] => []

theorem stopsFound_step (found after : Resource) (events : List (Activity.Event loading Resource)) :
    stopsFound (.step found after :: events) = stopsFound events := by
  rw [stopsFound]
  exact nofun

theorem stopsFound_file (question : Files.Question) (answer : Option (Files.Answer question))
    (events : List (Activity.Event loading Resource)) :
    stopsFound (.call (LoadQuestion.file question) answer :: events) = stopsFound events := by
  rw [stopsFound]
  exact nofun

variable {ω : Type} {surroundings : Surroundings loading Resource ω}

/-- No path is given while files are read. -/
theorem stopsFound_reword {α : Type} (activity : Files.Using Resource α) (before : Resource × ω)
    (later : List (Activity.Event loading Resource)) :
    stopsFound (surroundings.events (activity.reword filing) before ++ later) =
      stopsFound later := by
  induction activity generalizing before with
  | done value => rfl
  | step change next ih => exact (stopsFound_step _ _ _).trans (ih _ _)
  | ask question next ih => exact (stopsFound_file _ _ _).trans (ih _ _)

/-! ## Paths -/

/-- The load of paths is given up: a stop is found before a path, or a path fails. All paths
before it contribute, and no stop is found before any of them. -/
inductive GivenUp (view : FileView) (defaults : NodeDefaults) (error : EngineError) :
    List String → List Bool → Prop where
  | stopped {path : String} {paths : List String} (stop : error = .stopping) :
      GivenUp view defaults error (path :: paths) [true]
  | failed {path : String} {paths : List String} (fails : view.Fails defaults path error) :
      GivenUp view defaults error (path :: paths) [false]
  | later {path : String} {paths : List String} {stops : List Bool}
      (contributes : ∃ graph, view.Contributes defaults path graph)
      (givenUp : GivenUp view defaults error paths stops) :
      GivenUp view defaults error (path :: paths) (false :: stops)

/-- Unless a stop was found, a load that is given up has a path that contributes nothing. -/
theorem GivenUp.not_overlaid {view : FileView} {defaults : NodeDefaults} {error : EngineError}
    {paths : List String} {stops : List Bool} (givenUp : GivenUp view defaults error paths stops)
    (noStop : true ∉ stops) (graph result : Graph) :
    ¬ graph.Overlaid (view.Contributes defaults) paths result := by
  intro overlaid
  have each (path : String) (member : path ∈ paths) :
      ∃ patch, view.Contributes defaults path patch :=
    overlaid.exists_of_mem member
  clear overlaid
  induction givenUp with
  | stopped => exact noStop List.mem_cons_self
  | failed fails =>
    obtain ⟨patch, contributes⟩ := each _ List.mem_cons_self
    exact contributes.not_fails fails
  | later _ _ ih =>
    exact ih (fun found => noStop (List.mem_cons_of_mem _ found))
      fun path member => each path (List.mem_cons_of_mem _ member)

/-- What comes of overlaying a graph with those of paths. -/
def Comes (view : FileView) (defaults : NodeDefaults) (graph : Graph) (paths : List String)
    (stops : List Bool) : Outcome Graph → Prop
  | .ok result =>
    graph.Overlaid (view.Contributes defaults) paths result ∧ stops = paths.map fun _ => false
  | .error error => GivenUp view defaults error paths stops

theorem Comes.next {view : FileView} {defaults : NodeDefaults} {graph patch : Graph}
    {path : String} {paths : List String} {stops : List Bool} {outcome : Outcome Graph}
    (contributes : view.Contributes defaults path patch)
    (comes : Comes view defaults (graph.merged patch) paths stops outcome) :
    Comes view defaults graph (path :: paths) (false :: stops) outcome := by
  cases outcome with
  | ok result => exact ⟨comes.1.cons contributes, congrArg _ comes.2⟩
  | error error => exact .later ⟨patch, contributes⟩ comes

/-- Two resources hold the same graph, by the same defaults. -/
structure Same (resource other : Resource) : Prop where
  graph : other.graph = resource.graph
  loaded : other.loaded = resource.loaded
  defaults : other.defaults = resource.defaults

theorem Same.trans {resource other another : Resource} (same : Same resource other)
    (same' : Same other another) : Same resource another :=
  ⟨same'.graph.trans same.graph, same'.loaded.trans same.loaded,
    same'.defaults.trans same.defaults⟩

/-- Others may stop a load and change plug-ins, but nobody else loads. -/
abbrev LeftAlone (surroundings : Surroundings loading Resource ω) : Prop :=
  ∀ before, Same before.1 (surroundings.meanwhile before).1

/-- Nobody asks a load to stop. -/
abbrev LeftGoing (surroundings : Surroundings loading Resource ω) : Prop :=
  ∀ before, before.1.stopping = false → (surroundings.meanwhile before).1.stopping = false

variable {view : FileView}

/-- What a load does with a path before which no stop was found. -/
def loadNext (merged : Graph) (position : Nat) (path : String) (paths : List String) :
    Loading (Outcome Graph) := do
  match ← (Graph.load (← Activity.reads Resource.defaults) path).reword filing with
  | .error error => pure (.error error)
  | .ok patch => loadEach (merged.merged patch) (position + 1) paths

/-- From a situation on, an activity overlays a graph with those of paths, where some stops were
found or not found before. -/
structure Overlays (surroundings : Surroundings loading Resource ω) (view : FileView)
    (resource : Resource) (merged : Graph) (paths : List String) (earlier : List Bool)
    (activity : Loading (Outcome Graph)) (before : Resource × ω) : Prop where
  apart : ∀ later, stopsFound (surroundings.events activity before ++ later) =
    stopsFound (surroundings.events activity before) ++ stopsFound later
  same : Same resource (surroundings.carry activity before).2.1
  comes : Comes view resource.defaults merged paths
    (earlier ++ stopsFound (surroundings.events activity before))
    (surroundings.carry activity before).1
  going : LeftGoing surroundings → before.1.stopping = false →
    true ∉ stopsFound (surroundings.events activity before)

/-- A path is loaded and the next ones are, or it fails. -/
theorem overlays_loadNext (shows : (surroundings.reworded filing).Shows view)
    (alone : LeftAlone surroundings) {resource : Resource} {paths : List String}
    (rest : ∀ merged position before, Same resource before.1 →
      Overlays surroundings view resource merged paths [] (loadEach merged position paths) before)
    (merged : Graph) (position : Nat) (path : String) (before : Resource × ω)
    (same : Same resource before.1) :
    Overlays surroundings view resource merged (path :: paths) [false]
      (loadNext merged position path paths) before := by
  let found := surroundings.meanwhile before
  have still : Same resource found.1 := same.trans (alone before)
  let read : Loading (Outcome Graph) := (Graph.load found.1.defaults path).reword filing
  let next : Outcome Graph → Loading (Outcome Graph)
    | .error error => pure (.error error)
    | .ok patch => loadEach (merged.merged patch) (position + 1) paths
  have finds : (surroundings.reworded filing).Finds (Graph.load found.1.defaults path) found
      (view.PathComes found.1.defaults path) := FileView.finds_load shows path found
  have rereads : surroundings.carry read found =
      (surroundings.reworded filing).carry (Graph.load found.1.defaults path) found :=
    surroundings.carry_reword filing _ found
  obtain ⟨kept, came⟩ := finds
  rw [← rereads] at kept came
  rw [still.defaults] at came
  have course : surroundings.carry (loadNext merged position path paths) before =
      surroundings.carry (next (surroundings.carry read found).1)
        (surroundings.carry read found).2 := surroundings.carry_bind read next found
  have happens : ∀ later, stopsFound
      (surroundings.events (loadNext merged position path paths) before ++ later) =
        stopsFound (surroundings.events (next (surroundings.carry read found).1)
          (surroundings.carry read found).2 ++ later) := by
    intro later
    have events : surroundings.events (loadNext merged position path paths) before =
        .step found.1 found.1 :: surroundings.events (read >>= next) found := rfl
    rw [events, surroundings.events_bind, List.cons_append, stopsFound_step, List.append_assoc]
    exact stopsFound_reword _ _ _
  have happened := happens []
  rw [List.append_nil, List.append_nil] at happened
  generalize surroundings.carry read found = loaded at kept came course happens happened
  obtain ⟨outcome, after⟩ := loaded
  cases outcome with
  | error error =>
    constructor
    · intro later
      rw [happens, happened]
      rfl
    · rw [course]
      show Same resource after.1
      rw [kept]
      exact still
    · rw [course, happened]
      exact .failed came
    · rw [happened]
      exact fun _ _ => List.not_mem_nil
  | ok patch =>
    have still' : Same resource after.1 := by
      rw [kept]
      exact still
    have later := rest (merged.merged patch) (position + 1) after still'
    constructor
    · intro events
      rw [happens, happened]
      exact later.apart events
    · rw [course]
      exact later.same
    · rw [course, happened]
      exact later.comes.next came
    · intro goes calm
      rw [happened]
      exact later.going goes (by rw [kept]; exact goes before calm)

/-- **Paths are overlaid in their order**, up to the first that fails or before which a stop is
found. -/
theorem overlays_loadEach (shows : (surroundings.reworded filing).Shows view)
    (alone : LeftAlone surroundings) (resource : Resource) (paths : List String) (merged : Graph)
    (position : Nat) (before : Resource × ω) (same : Same resource before.1) :
    Overlays surroundings view resource merged paths [] (loadEach merged position paths)
      before := by
  induction paths generalizing merged position before with
  | nil => exact ⟨fun _ => rfl, same, ⟨⟨[], .nil, rfl⟩, rfl⟩, fun _ _ => List.not_mem_nil⟩
  | cons path paths ih =>
    let given := surroundings.answer (LoadQuestion.nextPath position) before
    let found := surroundings.meanwhile (before.1, given.2)
    have still : Same resource found.1 := same.trans (alone (before.1, given.2))
    -- A path is given, and the load looks for a stop.
    let next : Loading (Outcome Graph) :=
      if found.1.stopping then pure (.error .stopping) else loadNext merged position path paths
    have course : surroundings.carry (loadEach merged position (path :: paths)) before =
        surroundings.carry next found := rfl
    have looks : ∀ later, stopsFound (surroundings.events
        (loadEach merged position (path :: paths)) before ++ later) =
        found.1.stopping :: stopsFound (surroundings.events next found ++ later) := fun _ => rfl
    have looked := looks []
    rw [List.append_nil, List.append_nil] at looked
    cases stopping : found.1.stopping with
    | true =>
      have stops : next = pure (.error .stopping) := if_pos stopping
      rw [stops, stopping] at looks looked
      rw [stops] at course
      constructor
      · intro later
        rw [looks, looked]
        rfl
      · rw [course]
        exact still
      · rw [course, looked]
        exact .stopped rfl
      · intro goes calm
        exact absurd (goes (before.1, given.2) calm) (by simp [found, stopping])
    | false =>
      have goesOn : next = loadNext merged position path paths := if_neg (by simp [stopping])
      rw [goesOn, stopping] at looks looked
      rw [goesOn] at course
      have later := overlays_loadNext shows alone ih merged position path found still
      constructor
      · intro events
        rw [looks, looked, later.apart]
        rfl
      · rw [course]
        exact later.same
      · rw [course, looked]
        exact later.comes
      · intro goes calm
        rw [looked]
        exact List.not_mem_cons_of_ne_of_not_mem nofun (later.going goes stopping)

/-! ## Loads -/

/-- What is done when all paths were overlaid, or one was not. -/
def conclude : Outcome Graph → Loading (Outcome Unit)
  | .error error => pure (.error error)
  | .ok merged => do
    publish merged
    pure (.ok ())

/-- The situation when the first path is awaited. A stop that was requested before is forgotten,
and others have had two turns. -/
def begun (surroundings : Surroundings loading Resource ω) (before : Resource × ω) :
    Resource × ω :=
  let found := surroundings.meanwhile before
  surroundings.meanwhile ({ found.1 with stopping := false }, found.2)

theorem same_begun (alone : LeftAlone surroundings) (before : Resource × ω) :
    Same before.1 (begun surroundings before).1 := by
  have first := alone before
  have second := alone ({ (surroundings.meanwhile before).1 with stopping := false },
    (surroundings.meanwhile before).2)
  exact ⟨second.graph.trans first.graph, second.loaded.trans first.loaded,
    second.defaults.trans first.defaults⟩

theorem begun_going (goes : LeftGoing surroundings) (before : Resource × ω) :
    (begun surroundings before).1.stopping = false :=
  goes _ rfl

theorem carry_loadPaths (paths : List String) (before : Resource × ω) :
    surroundings.carry (loadPaths paths) before =
      let begun := begun surroundings before
      let overlaid := surroundings.carry (loadEach begun.1.graph 0 paths) begun
      surroundings.carry (conclude overlaid.1) overlaid.2 :=
  surroundings.carry_bind (loadEach (begun surroundings before).1.graph 0 paths) conclude _

/-- Nothing is looked at before the first path is given, nor when everything has been read. -/
theorem stopsFound_loadPaths {resource : Resource} {paths : List String} {before : Resource × ω}
    (overlays : Overlays surroundings view resource (begun surroundings before).1.graph paths []
      (loadEach (begun surroundings before).1.graph 0 paths) (begun surroundings before)) :
    stopsFound (surroundings.events (loadPaths paths) before) =
      stopsFound (surroundings.events (loadEach (begun surroundings before).1.graph 0 paths)
        (begun surroundings before)) := by
  have silent : ∀ outcome after,
      stopsFound (surroundings.events (conclude outcome) after) = [] := by
    rintro (error | merged) after <;> rfl
  let found := surroundings.meanwhile before
  have events : surroundings.events (loadPaths paths) before =
      .step found.1 { found.1 with stopping := false } ::
        .step (begun surroundings before).1 (begun surroundings before).1 ::
          surroundings.events
            (loadEach (begun surroundings before).1.graph 0 paths >>= conclude)
            (begun surroundings before) := rfl
  rw [events, stopsFound_step, stopsFound_step, surroundings.events_bind, overlays.apart, silent,
    List.append_nil]

/-- A graph that is put in place is there, and then it is said that there is one. -/
theorem carry_publish (alone : LeftAlone surroundings) (merged : Graph) (before : Resource × ω) :
    (surroundings.carry (publish merged) before).2.1.graph = merged ∧
      (surroundings.carry (publish merged) before).2.1.loaded = true :=
  ⟨(alone ({ (surroundings.meanwhile before).1 with graph := merged },
    (surroundings.meanwhile before).2)).graph, rfl⟩

/-- **A load of paths is all or nothing.** Let the files stay what they are and the names of a
directory be given in any order, and let nobody else load. Then a load ends in one of two ways.
Either every path contributes, and no stop was found before any of them; the graph is overlaid
with what the paths contribute, in their order, and this is put in place. Or the load is given
up at the first path that fails or before which a stop was found, and the graph is as it was, and
so is whether there is one. A stop that is found was requested since the load began; and what
others keep, such as a graph that they took from the resource before, the load leaves alone. -/
theorem loadPaths_all_or_nothing (shows : (surroundings.reworded filing).Shows view)
    (alone : LeftAlone surroundings) (resource : Resource) (world : ω) (paths : List String) :
    let course := surroundings.carry (loadPaths paths) (resource, world)
    let stops := stopsFound (surroundings.events (loadPaths paths) (resource, world))
    ((course.1 = .ok () ∧ (stops = paths.map fun _ => false) ∧ course.2.1.loaded = true ∧
        ∀ graph, resource.graph.Overlaid (view.Contributes resource.defaults) paths graph ↔
          graph = course.2.1.graph) ∨
      ∃ error, course.1 = .error error ∧ GivenUp view resource.defaults error paths stops ∧
        course.2.1.loaded = resource.loaded ∧ course.2.1.graph = resource.graph) ∧
    (LeftGoing surroundings → true ∉ stops) ∧
    ∀ {γ : Type} (taken : ω → γ),
      (∀ before, taken (surroundings.meanwhile before).2 = taken before.2) →
      (∀ question before, taken (surroundings.answer question before).2 = taken before.2) →
      taken course.2.2 = taken world := by
  intro course stops
  let begun := begun surroundings (resource, world)
  let each : Loading (Outcome Graph) := loadEach begun.1.graph 0 paths
  have same : Same resource begun.1 := same_begun alone (resource, world)
  have overlays : Overlays surroundings view resource begun.1.graph paths [] each begun :=
    overlays_loadEach shows alone resource paths begun.1.graph 0 begun same
  have course_eq : course = surroundings.carry (conclude (surroundings.carry each begun).1)
      (surroundings.carry each begun).2 := carry_loadPaths paths (resource, world)
  have stops_eq : stops = stopsFound (surroundings.events each begun) :=
    stopsFound_loadPaths overlays
  refine ⟨?_, fun goes => ?_, fun taken meanwhile answer => ?_⟩
  · have comes : Comes view resource.defaults begun.1.graph paths stops
        (surroundings.carry each begun).1 := by
      rw [stops_eq]
      exact overlays.comes
    have kept : Same resource (surroundings.carry each begun).2.1 := overlays.same
    rw [same.graph] at comes
    generalize surroundings.carry each begun = loaded at comes kept course_eq
    obtain ⟨outcome, after⟩ := loaded
    rw [course_eq]
    cases outcome with
    | error error => exact .inr ⟨error, rfl, comes, kept.loaded, kept.graph⟩
    | ok merged =>
      obtain ⟨overlaid, stops⟩ := comes
      obtain ⟨placed, loaded⟩ := carry_publish alone merged after
      refine .inl ⟨rfl, stops, loaded, fun graph => ?_⟩
      show _ ↔ graph = (surroundings.carry (publish merged) after).2.1.graph
      rw [placed]
      constructor
      · exact overlaid.unique fun _ _ _ contributes again => contributes.unique again
      · rintro rfl
        exact overlaid
  · rw [stops_eq]
    exact overlays.going goes (begun_going goes (resource, world))
  · exact Surroundings.carry_keeps taken meanwhile answer _ _

/-! ### A directory out of order -/

/-- A directory whose names are out of order, and a file beside it. -/
def home : FileView where
  isDirectory path := path = "base"
  names path :=
    if path = "base" then .ok ["b.json", "notes.txt", "a.json"] else .error .notDirectory
  text path :=
    if path = "base/a.json" then .ok "\x7b\"A\": \x7b\x7d, \"B\": \x7b\"enabled\": false\x7d\x7d"
    else if path = "base/b.json" then .ok "\x7b\"B\": \x7b\x7d\x7d"
    else if path = "patch.json" then .ok "\x7b\"A\": \x7b\"enabled\": false\x7d\x7d"
    else .error .missing

/-- The files at home, when others only stop loads, or do nothing. -/
def homeFiles (stops : Bool) : Surroundings loading Resource Unit where
  meanwhile before := ({ before.1 with stopping := stops || before.1.stopping }, before.2)
  answer question _ := ((match question with
    | .file (.isDirectory path) => home.isDirectory path
    | .file (.isPresent _) => true
    | .file (.names path) => home.names path
    | .file (.text path) => home.text path
    | .file (.makeDirectories _) | .file (.write _ _) | .file (.append _ _) =>
      .error (.other "read only")
    | .nextPath _ => ()), ())

/-- A node that is as by default, but for a flag. -/
def plain (name : String) (enabled : Bool) : Node := { Node.ofDefaults name default with enabled }

/-- A resource that has a graph. -/
def furnished : Resource :=
  { new default with graph := (Graph.empty.insert (plain "A" true)).insert (plain "C" true) }

/-- The documents of the directory, in the order of their names. -/
theorem home_documents :
    Graph.Documents ["b.json", "notes.txt", "a.json"] ["a.json", "b.json"] where
  perm := by
    have left : ["b.json", "notes.txt", "a.json"].filter (Path.hasEnding "json") =
        ["b.json", "a.json"] := by decide +kernel
    rw [left]
    exact .swap ..
  sorted := by decide +kernel

theorem home_defines :
    home.Defines default (Path.join "base" "a.json")
        ((Graph.empty.insert (plain "A" true)).insert (plain "B" false)) ∧
      home.Defines default (Path.join "base" "b.json") (Graph.empty.insert (plain "B" true)) ∧
      home.Defines default "patch.json" (Graph.empty.insert (plain "A" false)) := by
  have first : Path.join "base" "a.json" = "base/a.json" := by decide +kernel
  have second : Path.join "base" "b.json" = "base/b.json" := by decide +kernel
  rw [first, second]
  refine ⟨⟨_, rfl, ?_⟩, ⟨_, rfl, ?_⟩, ⟨_, rfl, ?_⟩⟩
  all_goals with_unfolding_all rfl

/-- The directory overrides the graph there was, and the document in it whose name comes later
overrides the other one. The file overrides them all. -/
theorem home_overlaid :
    furnished.graph.Overlaid (home.Contributes default) ["base", "patch.json"]
      ((furnished.graph.merged ((Graph.empty.merged
        ((Graph.empty.insert (plain "A" true)).insert (plain "B" false))).merged
          (Graph.empty.insert (plain "B" true)))).merged
            (Graph.empty.insert (plain "A" false))) := by
  obtain ⟨first, second, patch⟩ := home_defines
  have base : home.Contributes default "base" ((Graph.empty.merged
      ((Graph.empty.insert (plain "A" true)).insert (plain "B" false))).merged
        (Graph.empty.insert (plain "B" true))) :=
    .directory rfl rfl home_documents (.cons first (.cons second ⟨[], .nil, rfl⟩))
  exact .cons base (.cons (.file rfl patch) ⟨[], .nil, rfl⟩)

/-- A directory and a file are loaded on top of a graph. Where a file is missing the load is given
up after the directory has been read, and so it is when it is stopped. -/
theorem home_loaded :
    (∀ stops, ((homeFiles stops).reworded filing).Shows home ∧ LeftAlone (homeFiles stops)) ∧
      (let course := (homeFiles false).carry (loadPaths ["base", "patch.json"]) (furnished, ())
       course.1 = .ok () ∧ course.2.1.loaded = true ∧
         course.2.1.graph.find? "A" = some (plain "A" false) ∧
         course.2.1.graph.find? "B" = some (plain "B" true) ∧
         course.2.1.graph.find? "C" = some (plain "C" true)) ∧
      (let course := (homeFiles false).carry (loadPaths ["base", "gone.json"]) (furnished, ())
       (∃ error, course.1 = .error error) ∧ course.2.1.loaded = false ∧
         course.2.1.graph = furnished.graph) ∧
      (let course := (homeFiles true).carry (loadPaths ["base", "patch.json"]) (furnished, ())
       course.1 = .error .stopping ∧ course.2.1.loaded = false ∧
         course.2.1.graph = furnished.graph) := by
  have shows (stops : Bool) : ((homeFiles stops).reworded filing).Shows home :=
    ⟨fun _ _ => rfl, fun _ _ => rfl, fun _ _ _ same => same,
      fun _ names _ same => ⟨names, .refl _, same⟩⟩
  have alone (stops : Bool) : LeftAlone (homeFiles stops) := fun _ => ⟨rfl, rfl, rfl⟩
  have going : LeftGoing (homeFiles false) := fun _ calm => calm
  refine ⟨fun stops => ⟨shows stops, alone stops⟩, ?loaded, ?missing, ?stopped⟩
  case loaded =>
    obtain ⟨ends, calm, -⟩ := loadPaths_all_or_nothing (shows false) (alone false) furnished ()
      ["base", "patch.json"]
    rcases ends with ⟨ends, -, loaded, only⟩ | ⟨error, -, givenUp, -⟩
    · refine ⟨ends, loaded, ?_⟩
      rw [← (only _).mp home_overlaid]
      exact ⟨rfl, rfl, rfl⟩
    · exact (givenUp.not_overlaid (calm going) _ _ home_overlaid).elim
  case missing =>
    rcases (loadPaths_all_or_nothing (shows false) (alone false) furnished ()
      ["base", "gone.json"]).1 with ⟨-, -, -, only⟩ | ⟨error, failed, -, kept⟩
    · have member : "gone.json" ∈ ["base", "gone.json"] := by simp
      obtain ⟨_, contributes⟩ := ((only _).mpr rfl).exists_of_mem member
      cases contributes with
      | file _ defines =>
        obtain ⟨_, read, -⟩ := defines
        exact nomatch read
      | directory isDirectory => exact nomatch isDirectory
    · exact ⟨⟨error, failed⟩, kept⟩
  case stopped =>
    have stopped : ((homeFiles true).carry (loadPaths ["base", "patch.json"])
        (furnished, ())).1 = .error .stopping := rfl
    rcases (loadPaths_all_or_nothing (shows true) (alone true) furnished ()
      ["base", "patch.json"]).1 with ⟨ends, -⟩ | ⟨error, -, -, kept⟩
    · exact nomatch stopped.symm.trans ends
    · exact ⟨stopped, kept⟩

end Resource

end ScreenPilot
