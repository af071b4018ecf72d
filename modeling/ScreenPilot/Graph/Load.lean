import ScreenPilot.Files.Access
import ScreenPilot.Files.Path
import ScreenPilot.Graph.Basic
import ScreenPilot.Text.Quoted

/-!
# Loading graphs

A graph is loaded from a document in a file, or from all documents of a
directory in the order of their names, of which later ones override earlier
ones. An error says which file or directory it is about.
-/

set_option autoImplicit false

namespace ScreenPilot

/-- An outcome whose error, if it is one, is put in a context. -/
def inContext {α : Type} (context : String) : Outcome α → Outcome α
  | .ok value => .ok value
  | .error error => .error (.within context error)

/-- A context that is about a path. -/
def aboutPath (doing path : String) : String := doing ++ " " ++ Text.quoted path

namespace Graph

variable {σ : Type}

/-- Loads the graph of a file. -/
def loadFile (defaults : NodeDefaults) (path : String) :
    Files.Using σ (Outcome Graph) := do
  match ← Files.text path with
  | .error fault =>
    pure (inContext (aboutPath "Failed to read pipeline" path) (.error (.file fault)))
  | .ok text =>
    pure (inContext (aboutPath "Failed to parse pipeline" path) (ofText defaults text))

/-- The graph overridden by those of files, up to the first that fails. -/
def loadFiles (defaults : NodeDefaults) (graph : Graph) :
    List String → Files.Using σ (Outcome Graph)
  | [] => pure (.ok graph)
  | path :: paths => do
    match ← loadFile defaults path with
    | .error error => pure (.error error)
    | .ok patch => loadFiles defaults (graph.merged patch) paths

/-- The names that are loaded from a directory, in order. -/
def documentNames (names : List String) : List String :=
  (names.filter (Path.hasEnding "json")).mergeSort

/-- Loads the graph of a directory. -/
def loadDirectory (defaults : NodeDefaults) (directory : String) :
    Files.Using σ (Outcome Graph) := do
  match ← Files.names directory with
  | .error fault =>
    pure (inContext (aboutPath "Failed to read pipeline directory" directory)
      (.error (.file fault)))
  | .ok names => loadFiles defaults empty ((documentNames names).map (Path.join directory))

/-- Loads the graph of a file or directory. -/
def load (defaults : NodeDefaults) (path : String) :
    Files.Using σ (Outcome Graph) := do
  if ← Files.isDirectory path then
    loadDirectory defaults path
  else loadFile defaults path

end Graph

end ScreenPilot
