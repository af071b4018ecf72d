import ScreenPilot.Proofs.Activity.Tracks
import ScreenPilot.Proofs.Graph.Names
import ScreenPilot.Proofs.Resource.Loads

/-!
# What loads put in place

A load takes the graph that it finds, its base, and later puts another one in place. In between
it asks about files, and it leaves the graph alone. The graph that it puts in place has the names
of the base and those that its documents define, whatever became of the graph meanwhile
(`Stage.Goes`); and a load that has ended well has put one in place (`tracks_loadJson`,
`tracks_loadPaths`). The documents of a load are the one that it was given, or those that it was
told when it asked for the texts of files.
-/

set_option autoImplicit false

namespace ScreenPilot

open Activity

/-- The documents that an answer holds. -/
def Files.Question.documents : (question : Files.Question) → Files.Answer question → List Json
  | .text _, .ok content => (Json.parse? content).toList
  | _, _ => []

/-! ## Documents of files -/

namespace Graph

/-- Documents are gathered from answers. -/
inductive Gathers {σ : Type} : List Json → Event Files.access σ → List Json → Prop where
  | told (documents : List Json) (question : Files.Question) (answer : Files.Answer question) :
      Gathers documents (.call question (some answer)) (documents ++ question.documents answer)

variable {σ : Type} {defaults : NodeDefaults}

/-- The graph of a file covers the document that was gathered. -/
theorem tracks_loadFile (path : String) (documents : List Json) :
    (loadFile defaults path : Files.Using σ (Outcome Graph)).Tracks Gathers
      (fun documents' outcome => ∀ patch, outcome = .ok patch →
        ∃ more, documents' = documents ++ more ∧ empty.Covers more patch) documents := by
  intro answer
  refine ⟨_, .told documents (.text path) answer, ?_⟩
  rcases answer with fault | text
  · exact nofun
  · intro patch ends
    refine ⟨_, rfl, ?_⟩
    show empty.Covers (Json.parse? text).toList patch
    unfold ofText at ends
    cases parsed : Json.parse? text with
    | none =>
      rw [parsed] at ends
      exact nomatch ends
    | some document =>
      rw [parsed] at ends
      cases reads : ofJson defaults document with
      | error cause =>
        simp only [reads] at ends
        exact nomatch ends
      | ok graph =>
        simp only [reads] at ends
        cases ends
        exact covers_ofJson reads

theorem tracks_loadFiles {base : Graph} (paths : List String) {graph : Graph}
    {documents : List Json} (covers : base.Covers documents graph) :
    (loadFiles defaults graph paths : Files.Using σ (Outcome Graph)).Tracks Gathers
      (fun documents' outcome => ∀ result, outcome = .ok result → base.Covers documents' result)
      documents := by
  induction paths generalizing graph documents with
  | nil =>
    intro result ends
    cases ends
    exact covers
  | cons path paths ih =>
    refine (tracks_loadFile path documents).bind ?_
    rintro (error | patch) documents' brings
    · exact nofun
    · obtain ⟨more, rfl, also⟩ := brings patch rfl
      exact ih (covers.merged also)

/-- **The graph of a path covers the documents that were gathered.** -/
theorem tracks_load (path : String) :
    (load defaults path : Files.Using σ (Outcome Graph)).Tracks Gathers
      (fun documents outcome => ∀ patch, outcome = .ok patch → empty.Covers documents patch)
      [] := by
  intro (isDirectory : Bool)
  refine ⟨_, .told [] (.isDirectory path) isDirectory, ?_⟩
  show Tracks _ _ (if isDirectory = true then loadDirectory defaults path
    else loadFile defaults path) _
  split
  · intro answer
    refine ⟨_, .told [] (.names path) answer, ?_⟩
    rcases answer with fault | names
    · exact nofun
    · exact tracks_loadFiles _ (covers_self empty)
  · have brings : Tracks (@Gathers σ) _ (loadFile defaults path) [] := tracks_loadFile path []
    rw [← bind_pure (loadFile defaults path)]
    refine brings.bind fun outcome documents came patch ends => ?_
    obtain ⟨more, rfl, covers⟩ := came patch ends
    exact covers

end Graph

namespace Resource

/-- The documents that an answer holds. -/
def LoadQuestion.documents : (question : LoadQuestion) → LoadAnswer question → List Json
  | .file question, answer => question.documents answer
  | .nextPath _, _ => []

/-- How far a load has come. -/
inductive Stage where
  /-- It has not taken the graph yet. -/
  | begun
  /-- It has taken the graph, its base. -/
  | based (base : Graph)
  /-- It has put a graph in place. -/
  | put

/-- What may happen in a load whose documents are gathered. -/
inductive Stage.Goes :
    Stage × List Json → Event loading Resource → Stage × List Json → Prop where
  | keeps {stage : Stage} {documents : List Json} {found after : Resource}
      (same : after.graph = found.graph) :
      Goes (stage, documents) (.step found after) (stage, documents)
  | takes {documents : List Json} {found after : Resource} (same : after.graph = found.graph) :
      Goes (.begun, documents) (.step found after) (.based found.graph, documents)
  | told {base : Graph} (documents : List Json) (question : LoadQuestion)
      (answer : LoadAnswer question) :
      Goes (.based base, documents) (.call question (some answer))
        (.based base, documents ++ question.documents answer)
  | puts {base : Graph} {documents : List Json} {found after : Resource}
      (covers : base.Covers documents after.graph) :
      Goes (.based base, documents) (.step found after) (.put, documents)

/-- A load that has ended well has put a graph in place. -/
def Stage.Last (phase : Stage × List Json) (outcome : Outcome Unit) : Prop :=
  outcome = .ok () → phase.1 = .put

theorem tracks_publish {base graph : Graph} {documents : List Json}
    (covers : base.Covers documents graph) :
    (publish graph >>= fun _ => pure (.ok ()) : Loading (Outcome Unit)).Tracks Stage.Goes Stage.Last
      (.based base, documents) := by
  intro found
  refine ⟨_, .puts covers, fun found' => ⟨_, .keeps rfl, fun _ => rfl⟩⟩

theorem tracks_loadJson (document : Json) :
    (loadJson document).Tracks Stage.Goes Stage.Last (.begun, [document]) := by
  unfold loadJson
  refine Tracks.reads fun found => ⟨_, .keeps rfl, ?_⟩
  cases reads : Graph.ofJson found.defaults document with
  | error error => exact nofun
  | ok patch =>
    refine Tracks.reads fun found' => ⟨_, .takes rfl, tracks_publish ?_⟩
    exact (Graph.covers_self found'.graph).merged (Graph.covers_ofJson reads)

/-- While a path is loaded, the documents of its files are gathered. -/
theorem tracks_path {base : Graph} {documents : List Json} {defaults : NodeDefaults}
    (path : String) :
    ((Graph.load defaults path).reword filing : Loading (Outcome Graph)).Tracks Stage.Goes
      (fun phase outcome => ∃ more, phase = (.based base, documents ++ more) ∧
        ∀ patch, outcome = .ok patch → Graph.empty.Covers more patch)
      (.based base, documents) := by
  let gathered (more : List Json) : Stage × List Json := (.based base, documents ++ more)
  have asks : ∀ more question answer more',
      @Graph.Gathers Resource more (.call question (some (filing.back question answer))) more' →
      Stage.Goes (gathered more) (.call (filing.put question) (some answer)) (gathered more') := by
    rintro more question answer more' ⟨⟩
    simp only [gathered]
    rw [← List.append_assoc]
    exact .told _ (.file question) answer
  have start : gathered [] = (.based base, documents) := by
    simp only [gathered, List.append_nil]
  rw [← start]
  have reads : Tracks (@Graph.Gathers Resource) _ (Graph.load defaults path) [] :=
    Graph.tracks_load path
  exact reads.reword gathered (fun _ _ _ _ goes => nomatch goes) asks

/-- While paths are loaded, what was read covers the documents that were gathered. -/
theorem tracks_loadEach {base : Graph} (paths : List String) {merged : Graph}
    {documents : List Json} (covers : base.Covers documents merged) (position : Nat) :
    (loadEach merged position paths).Tracks Stage.Goes
      (fun phase outcome => ∃ documents', phase = (.based base, documents') ∧
        ∀ result, outcome = .ok result → base.Covers documents' result)
      (.based base, documents) := by
  induction paths generalizing merged documents position with
  | nil =>
    refine ⟨documents, rfl, fun result ends => ?_⟩
    cases ends
    exact covers
  | cons path paths ih =>
    intro answer
    refine ⟨_, .told documents (.nextPath position) answer, fun found => ⟨_, .keeps rfl, ?_⟩⟩
    have untold : documents ++ (LoadQuestion.nextPath position).documents answer = documents :=
      List.append_nil documents
    rw [untold]
    show Tracks _ _ (if found.stopping = true then pure (.error .stopping)
      else loadNext merged position path paths) _
    split
    · exact ⟨documents, rfl, nofun⟩
    · intro found'
      refine ⟨_, .keeps rfl, ?_⟩
      refine (tracks_path path).bind ?_
      rintro (error | patch) _ ⟨more, rfl, came⟩
      · exact ⟨_, rfl, nofun⟩
      · exact ih (covers.merged (came patch rfl)) (position + 1)

theorem tracks_loadPaths (paths : List String) :
    (loadPaths paths).Tracks Stage.Goes Stage.Last (.begun, []) := by
  intro found
  refine ⟨_, .keeps rfl, fun found' => ⟨_, .takes rfl, ?_⟩⟩
  refine (tracks_loadEach paths (Graph.covers_self found'.graph) 0).bind ?_
  rintro (error | merged) _ ⟨documents, rfl, came⟩
  · exact nofun
  · exact tracks_publish (came merged rfl)

end Resource

end ScreenPilot
