import ScreenPilot.Check.Arguments
import ScreenPilot.Check.Log
import ScreenPilot.Config.Store
import ScreenPilot.Graph.Issue
import ScreenPilot.Resource

/-!
# Checking pipelines

The checker loads pipelines as the engine does, counts what is wrong with the
graph they make, and looks for the entries it was given. It succeeds if the
graph has no fatal issue and every entry is in it.
-/

set_option autoImplicit false

namespace ScreenPilot

namespace Check

/-- What the checker found. -/
structure Report where
  nodes : Nat
  issues : Nat
  fatal : Nat
  /-- Entries that are no nodes, counted as often as they were given. -/
  missing : Nat
deriving DecidableEq

namespace Report

/-- What there is to say about a graph and entries. -/
def of (graph : Graph) (entries : List String) : Report where
  nodes := graph.size
  issues := graph.issues.length
  fatal := graph.issues.countP GraphIssue.isFatal
  missing := entries.countP fun entry => ¬ graph.contains entry

/-- Nothing stands in the way of a run. -/
def isGood (report : Report) : Bool := report.fatal + report.missing = 0

/-- The line that is printed. -/
def text (report : Report) : String :=
  toString report.nodes ++ " nodes, " ++ toString report.issues ++ " issue(s), " ++
    toString report.fatal ++ " fatal, " ++ toString report.missing ++ " missing entr" ++
    (if report.missing = 1 then "y" else "ies") ++ "\n"

end Report

/-- What the program prints and with which code it ends. -/
structure Ending where
  code : UInt32
  output : String
deriving DecidableEq

namespace Ending

/-- The program could not do what it was asked for. -/
def failure : Ending := ⟨1, ""⟩

/-- The command line could not be followed. -/
def refusal : Ending := ⟨2, ""⟩

/-- The program could not go on. -/
def crash : Ending := ⟨101, ""⟩

/-- The end after a check. -/
def ofReport (report : Report) : Ending := ⟨if report.isGood then 0 else 1, report.text⟩

end Ending

/-- The name of the program, with its version. -/
def versionText : String := "screenflow 0.1.0\n"

/-- How the program is called. -/
def helpText : String :=
  "Check pipeline files before running them\n\n" ++
  "Usage: screenflow [OPTIONS] <PIPELINES>...\n\n" ++
  "Arguments:\n" ++
  "  <PIPELINES>...  Pipeline JSON files or directories, loaded in order\n\n" ++
  "Options:\n" ++
  "      --config <CONFIG>  Engine config file (defaults to the platform data directory)\n" ++
  "      --entry <NAME>     Node that must exist in the loaded graph; may be repeated\n" ++
  "  -h, --help             Print help\n" ++
  "  -V, --version          Print version\n"

/-- An activity on files, as part of a load. -/
def usingFiles {α : Type} (activity : Files.Using Resource α) : Resource.Loading α :=
  activity.widen Resource.LoadQuestion.file fun _ answer => answer

/-- The configuration that holds: the one that is named, which must be readable,
or the one at the usual place. -/
def configuration (named usual : Option String) : Resource.Loading (Outcome EngineConfig) :=
  match named, usual with
  | some path, _ => usingFiles (EngineConfig.load path)
  | none, some path => do return .ok (← usingFiles (EngineConfig.loadOrDefault path))
  | none, none => pure (.ok default)

/-- Loads pipelines and reports on the graph they make. -/
def checkLoaded (defaults : NodeDefaults) (options : Options) :
    Resource.Loading (Outcome Report) := do
  Activity.modify fun _ => Resource.new defaults
  match ← Resource.loadPaths options.pipelines with
  | .error error => pure (.error (.within "Failed to load pipelines" error))
  | .ok () => return .ok (.of (← Activity.reads Resource.graph) options.entries)

/-- Checks pipelines under the configuration that holds. -/
def check (usual : Option String) (day : CalendarDay) (options : Options) :
    Resource.Loading (Reply (Outcome Report)) := do
  match ← configuration options.config usual with
  | .error error => pure (.returned (.error error))
  | .ok config =>
    match ← usingFiles (prepareLog config.logging day) with
    | .crashed => pure .crashed
    | .returned (.error error) => pure (.returned (.error error))
    | .returned (.ok ()) => return .returned (← checkLoaded config.defaults options)

/-- What the program does on a day; `usual` is where the configuration usually
is. -/
def run (usual : Option String) (day : CalendarDay) (arguments : List String) :
    Resource.Loading Ending :=
  match Command.of arguments with
  | .refuse => pure .refusal
  | .showVersion => pure ⟨0, versionText⟩
  | .showHelp => pure ⟨0, helpText⟩
  | .check options => do
    match ← check usual day options with
    | .crashed => pure .crash
    | .returned (.error _) => pure .failure
    | .returned (.ok report) => pure (.ofReport report)

/-- Where the configuration usually is, below the directory for data. -/
def usualConfig (dataDirectory : String) : String :=
  Path.join (Path.join dataDirectory "dev.screenflow") "screenflow.toml"

end Check

end ScreenPilot
