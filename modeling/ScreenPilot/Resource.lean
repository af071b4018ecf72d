import ScreenPilot.Graph.Load

/-!
# Resources

A resource holds the graph that tasks run on and the plug-ins that nodes call
by name. Loading never changes a graph: a new one is made from the one that was
there when the load began, and put in its place as a whole when everything has
been read. So a graph that was taken from the resource stays what it was, and a
load that fails leaves the resource as it was.
-/

set_option autoImplicit false

namespace ScreenPilot

/-- A graph and the plug-ins it calls. -/
structure Resource where
  defaults : NodeDefaults
  graph : Graph
  /-- A graph has been put in place. -/
  loaded : Bool
  /-- A load in progress is to be given up. -/
  stopping : Bool
  /-- The recognition plug-ins by their names. -/
  recognitions : Std.ExtTreeMap String Handle
  /-- The action plug-ins by their names. -/
  actions : Std.ExtTreeMap String Handle

namespace Resource

/-- A resource that has loaded nothing yet. -/
def new (defaults : NodeDefaults) : Resource := ⟨defaults, .empty, false, false, ∅, ∅⟩

instance : Inhabited Resource := ⟨new default⟩

/-- The resource as it is shown. -/
def text (resource : Resource) : String :=
  "PipelineResource \x7b nodes: " ++ toString resource.graph.size ++ ", loaded: " ++
    (if resource.loaded then "true" else "false") ++ " \x7d"

/-! ## Plug-ins -/

def registerRecognition (name : String) (plugIn : Handle) (resource : Resource) : Resource :=
  { resource with recognitions := resource.recognitions.insert name plugIn }

def registerAction (name : String) (plugIn : Handle) (resource : Resource) : Resource :=
  { resource with actions := resource.actions.insert name plugIn }

def unregisterRecognition (name : String) (resource : Resource) : Resource :=
  { resource with recognitions := resource.recognitions.erase name }

def unregisterAction (name : String) (resource : Resource) : Resource :=
  { resource with actions := resource.actions.erase name }

def clearRecognitions (resource : Resource) : Resource := { resource with recognitions := ∅ }

def clearActions (resource : Resource) : Resource := { resource with actions := ∅ }

/-! ## Loading -/

/-- Asks a load in progress to give up. -/
def requestStop (resource : Resource) : Resource := { resource with stopping := true }

/-- What is asked while loading. -/
inductive LoadQuestion where
  | file (question : Files.Question)
  /-- The caller is about to give the path at a position of the list. -/
  | nextPath (position : Nat)

/-- The answers while loading. -/
def LoadAnswer : LoadQuestion → Type
  | .file question => Files.Answer question
  | .nextPath _ => Unit

/-- The outside of a load. -/
def loading : Interface := ⟨LoadQuestion, LoadAnswer⟩

/-- An activity on a resource that loads. -/
abbrev Loading (α : Type) : Type := Activity loading Resource α

/-- Puts a graph in place of the one there was. -/
def publish (graph : Graph) : Loading Unit := do
  Activity.modify fun resource => { resource with graph }
  Activity.modify fun resource => { resource with loaded := true }

/-- Loads a document on top of the graph. -/
def loadJson (document : Json) : Loading (Outcome Unit) := do
  match Graph.ofJson (← Activity.reads Resource.defaults) document with
  | .error error => pure (.error error)
  | .ok patch =>
    publish ((← Activity.reads Resource.graph).merged patch)
    pure (.ok ())

/-- The graph overridden by those of paths, up to the first that fails or the
first that comes after a request to stop. -/
def loadEach (merged : Graph) (position : Nat) : List String → Loading (Outcome Graph)
  | [] => pure (.ok merged)
  | path :: paths => do
    let _ : Unit ← .ask (LoadQuestion.nextPath position) .done
    if ← Activity.reads Resource.stopping then pure (.error .stopping)
    else
      let load := Graph.load (← Activity.reads Resource.defaults) path
      match ← load.widen LoadQuestion.file fun _ answer => answer with
      | .error error => pure (.error error)
      | .ok patch => loadEach (merged.merged patch) (position + 1) paths

/-- Loads files and directories on top of the graph, in their order. -/
def loadPaths (paths : List String) : Loading (Outcome Unit) := do
  Activity.modify fun resource => { resource with stopping := false }
  match ← loadEach (← Activity.reads Resource.graph) 0 paths with
  | .error error => pure (.error error)
  | .ok merged =>
    publish merged
    pure (.ok ())

end Resource

end ScreenPilot
