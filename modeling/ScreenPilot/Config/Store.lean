import ScreenPilot.Config.Settings
import ScreenPilot.Files.Access
import ScreenPilot.Files.Path
import ScreenPilot.Text.Quoted
import ScreenPilot.Toml.Reader
import ScreenPilot.Toml.Writer

/-!
# Keeping the configuration

The configuration is kept as a TOML document with a section each for the
tasker, the log and the defaults of nodes. A setting that is not given is left
out when it is written.
-/

set_option autoImplicit false

namespace ScreenPilot

namespace EngineConfig

open Toml (Scalar)

variable {σ : Type}

/-! ## Texts -/

/-- The configuration of a document. -/
def ofText (document : String) : Outcome EngineConfig :=
  match Toml.parse? document with
  | none => .error .toml
  | some table =>
    match read true table.toJson with
    | .ok config => .ok config
    | .error _ => .error .toml

/-- The section of the tasker, or why it cannot be written. -/
def taskerSection (settings : TaskerSettings) : Except String Toml.Section := do
  return ("tasker",
    [("debug_mode", .bool settings.debugMode),
      ("stop_poll_interval_ms", ← Scalar.ofUInt64 settings.stopPollMs)])

/-- The section of the log, or why it cannot be written. -/
def loggingSection (settings : LogSettings) : Except String Toml.Section := do
  let logDir ← settings.logDir.mapM Scalar.ofPath
  return ("logging",
    [("filter", .string settings.filter)] ++ (logDir.map ("log_dir", ·)).toList ++
      [("file_prefix", .string settings.filePrefix), ("ansi", .bool settings.ansi)])

/-- The section of the defaults of nodes, or why it cannot be written. -/
def defaultsSection (defaults : NodeDefaults) : Except String Toml.Section := do
  return ("defaults",
    [("reco_timeout_ms", ← Scalar.ofUInt64 defaults.timeoutMs),
      ("rate_limit_ms", ← Scalar.ofUInt64 defaults.rateLimitMs),
      ("pre_delay_ms", ← Scalar.ofUInt64 defaults.preDelayMs),
      ("post_delay_ms", ← Scalar.ofUInt64 defaults.postDelayMs)] ++
      (defaults.maxHit.map fun limit => ("max_hit", Scalar.ofUInt32 limit)).toList)

/-- The document of a configuration, or why it cannot be written. -/
def text (config : EngineConfig) : Except String String := do
  let tasker ← taskerSection config.tasker
  let logging ← loggingSection config.logging
  let defaults ← defaultsSection config.defaults
  return Toml.writeSections [tasker, logging, defaults]

/-! ## Files -/

/-- Loads the configuration of a file. -/
def load (path : String) : Files.Using σ (Outcome EngineConfig) := do
  match ← Files.text path with
  | .error fault =>
    pure (.error (.config
      ("Failed to read config " ++ Text.quoted path ++ ": " ++ fault.message)))
  | .ok document =>
    match ofText document with
    | .ok config => pure (.ok config)
    | .error error =>
      pure (.error (.within ("Failed to parse config " ++ Text.quoted path) error))

/-- Loads the configuration of a file, or the one that holds when nothing is
given if there is no such file or it holds none. -/
def loadOrDefault (path : String) : Files.Using σ EngineConfig := do
  if ← Files.isPresent path then
    match ← load path with
    | .ok config => pure config
    | .error _ => pure default
  else pure default

/-- Makes the directory a file is to stand in, unless there is one. -/
def makeParent (path : String) : Files.Using σ (Except FileFault Unit) :=
  match Path.parent? path with
  | none | some "" => pure (.ok ())
  | some directory => do
    if ← Files.isPresent directory then pure (.ok ())
    else Files.makeDirectories directory

/-- Saves the configuration in a file. Nothing is touched if the configuration
cannot be written. -/
def save (config : EngineConfig) (path : String) :
    Files.Using σ (Outcome Unit) := do
  match config.text with
  | .error cause => pure (.error (.config ("Failed to serialize config: " ++ cause)))
  | .ok document =>
    match ← makeParent path with
    | .error fault => pure (.error (.file fault))
    | .ok () =>
      match ← Files.write path document with
      | .ok () => pure (.ok ())
      | .error fault =>
        pure (.error (.config
          ("Failed to write config " ++ Text.quoted path ++ ": " ++ fault.message)))

end EngineConfig

end ScreenPilot
