import ScreenPilot.Json.ReadError

/-!
# Errors of the engine

What can go wrong outside a run: reading pipelines and settings, posting tasks.
What goes wrong inside a run is the run's outcome and not an error. A cause may
be wrapped in contexts, each saying what was being done.
-/

set_option autoImplicit false

namespace ScreenPilot

/-- Why a file cannot be used. -/
inductive FileFault where
  | missing
  | isDirectory
  | notDirectory
  | notText
  /-- No file can have such a name: it is too long, or it holds the character zero. -/
  | badName
  /-- Any other refusal, in the words of the system. -/
  | other (reason : String)
deriving DecidableEq

namespace FileFault

/-- The wording of a refusal. -/
def message : FileFault → String
  | .missing => "no such file or directory"
  | .isDirectory => "is a directory"
  | .notDirectory => "not a directory"
  | .notText => "stream did not contain valid text"
  | .badName => "invalid file name"
  | .other reason => reason

end FileFault

/-- Why a document is no pipeline. -/
inductive PipelineFault where
  | notObject
  /-- The definition of a node cannot be read. -/
  | node (name : String) (cause : ReadError)
  /-- Any other fault, in words. -/
  | other (reason : String)

namespace PipelineFault

/-- The wording of a fault. -/
def message : PipelineFault → String
  | .notObject => "pipeline document must be a JSON object"
  | .node name cause => "node '" ++ name ++ "': " ++ cause.message
  | .other reason => reason

end PipelineFault

/-- An error of the engine. -/
inductive EngineError where
  /-- No node has this name. -/
  | unknownNode (name : String)
  | pipeline (fault : PipelineFault)
  | config (reason : String)
  /-- No loaded resource or no controller is bound. -/
  | notInitialized
  /-- A stop request is still being carried out. -/
  | stopping
  | controller (reason : String)
  | file (fault : FileFault)
  /-- A text is not JSON. -/
  | json
  /-- A text is not TOML, or holds no configuration. -/
  | toml
  | within (context : String) (source : EngineError)

namespace EngineError

/-- The wording of an error, outermost context first. -/
def message : EngineError → String
  | .unknownNode name => "Node not found: " ++ name
  | .pipeline fault => "Pipeline parse error: " ++ fault.message
  | .config reason => "Configuration error: " ++ reason
  | .notInitialized => "Tasker is not initialized"
  | .stopping => "Tasker is stopping"
  | .controller reason => "Controller error: " ++ reason
  | .file fault => "IO error: " ++ fault.message
  | .json => "JSON error: not a JSON text"
  | .toml => "TOML error: not a configuration"
  | .within context source => context ++ ": " ++ source.message

/-- The cause inside all contexts. -/
def root : EngineError → EngineError
  | .within _ source => source.root
  | other => other

/-- The number of contexts. -/
def depth : EngineError → Nat
  | .within _ source => source.depth + 1
  | _ => 0

/-- The error wrapped in contexts, the first one innermost. -/
def inContexts (error : EngineError) (contexts : List String) : EngineError :=
  contexts.foldl (fun error context => .within context error) error

end EngineError

/-- The outcome of an operation that may fail. -/
abbrev Outcome (α : Type) := Except EngineError α

end ScreenPilot
