import ScreenPilot.Files.Path
import ScreenPilot.Json.Record

/-!
# Settings

The three sections of the configuration. Every setting has a value when it is
not given, and keys that are no settings are ignored.
-/

set_option autoImplicit false

namespace ScreenPilot

/-- How a tasker notifies and stops. -/
structure TaskerSettings where
  /-- Notify about every node, not only about those with a focus. -/
  debugMode : Bool
  /-- How often a sleeping run looks for a stop request, in milliseconds. -/
  stopPollMs : UInt64
deriving DecidableEq

namespace TaskerSettings

instance : Inhabited TaskerSettings := ⟨⟨false, 10⟩⟩

/-- The interval between two looks for a stop request, at least a millisecond. -/
def stopPollInterval (settings : TaskerSettings) : UInt64 := max settings.stopPollMs 1

def form : RecordForm TaskerSettings where
  label := "struct TaskerSettings"
  isClosed := false
  fields :=
    [.of "debug_mode" .never Decode.bool fun debugMode settings => { settings with debugMode },
     .of "stop_poll_interval_ms" .never Decode.uint64
       fun stopPollMs settings => { settings with stopPollMs }]

def toJson (settings : TaskerSettings) : Json :=
  .object [("debug_mode", .bool settings.debugMode),
    ("stop_poll_interval_ms", .ofNat settings.stopPollMs.toNat)]

end TaskerSettings

/-- What is logged, and where. -/
structure LogSettings where
  filter : String
  /-- Directory for log files; none are written without one. -/
  logDir : Option RawPath
  filePrefix : String
  /-- Colours on the console. -/
  ansi : Bool
deriving DecidableEq

namespace LogSettings

instance : Inhabited LogSettings := ⟨⟨"info,screenflow=debug", none, "screenflow.log", true⟩⟩

/-- Reads a path, which is always a text. -/
def readPath : Reads RawPath := fun value =>
  (Decode.textAs "path string" value).map RawPath.ofText

/-- The directory for log files, if it is a text. -/
def logDirText? (settings : LogSettings) : Option String := settings.logDir.bind RawPath.text?

def form : RecordForm LogSettings where
  label := "struct LogSettings"
  isClosed := false
  fields :=
    [.of "filter" .never Decode.text fun filter settings => { settings with filter },
     .of "log_dir" .never (Decode.optional readPath)
       fun logDir settings => { settings with logDir },
     .of "file_prefix" .never Decode.text
       fun filePrefix settings => { settings with filePrefix },
     .of "ansi" .never Decode.bool fun ansi settings => { settings with ansi }]

def toJson (settings : LogSettings) : Json :=
  .object [("ansi", .bool settings.ansi), ("file_prefix", .string settings.filePrefix),
    ("filter", .string settings.filter), ("log_dir", .ofOption .string settings.logDirText?)]

end LogSettings

/-- Values for what a node does not say, times in milliseconds. -/
structure NodeDefaults where
  timeoutMs : UInt64
  rateLimitMs : UInt64
  preDelayMs : UInt64
  postDelayMs : UInt64
  /-- Hits a node may take in one run; any number if not given. -/
  maxHit : Option UInt32
deriving DecidableEq

namespace NodeDefaults

instance : Inhabited NodeDefaults := ⟨⟨20000, 1000, 200, 200, none⟩⟩

/-- No waiting anywhere. -/
def immediate : NodeDefaults := ⟨0, 0, 0, 0, none⟩

def form : RecordForm NodeDefaults where
  label := "struct NodeDefaults"
  isClosed := false
  fields :=
    [.of "reco_timeout_ms" .never Decode.uint64
       fun timeoutMs defaults => { defaults with timeoutMs },
     .of "rate_limit_ms" .never Decode.uint64
       fun rateLimitMs defaults => { defaults with rateLimitMs },
     .of "pre_delay_ms" .never Decode.uint64
       fun preDelayMs defaults => { defaults with preDelayMs },
     .of "post_delay_ms" .never Decode.uint64
       fun postDelayMs defaults => { defaults with postDelayMs },
     .of "max_hit" .never (Decode.optional Decode.uint32)
       fun maxHit defaults => { defaults with maxHit }]

def read : Reads NodeDefaults := form.read default false

def toJson (defaults : NodeDefaults) : Json :=
  .object [("max_hit", .ofOption (fun limit => .ofNat limit.toNat) defaults.maxHit),
    ("post_delay_ms", .ofNat defaults.postDelayMs.toNat),
    ("pre_delay_ms", .ofNat defaults.preDelayMs.toNat),
    ("rate_limit_ms", .ofNat defaults.rateLimitMs.toNat),
    ("reco_timeout_ms", .ofNat defaults.timeoutMs.toNat)]

end NodeDefaults

/-- The whole configuration. -/
structure EngineConfig where
  tasker : TaskerSettings
  logging : LogSettings
  defaults : NodeDefaults
deriving DecidableEq, Inhabited

namespace EngineConfig

/-- The form of a configuration; `anySurplus` as for `RecordForm.read`. -/
def form (anySurplus : Bool) : RecordForm EngineConfig where
  label := "struct EngineConfig"
  isClosed := false
  fields :=
    [.of "tasker" .never (TaskerSettings.form.read default anySurplus)
       fun tasker config => { config with tasker },
     .of "logging" .never (LogSettings.form.read default anySurplus)
       fun logging config => { config with logging },
     .of "defaults" .never (NodeDefaults.form.read default anySurplus)
       fun defaults config => { config with defaults }]

/-- Reads a configuration; `anySurplus` as for `RecordForm.read`. -/
def read (anySurplus : Bool) : Reads EngineConfig := (form anySurplus).read default anySurplus

def toJson (config : EngineConfig) : Json :=
  .object [("defaults", config.defaults.toJson), ("logging", config.logging.toJson),
    ("tasker", config.tasker.toJson)]

end EngineConfig

end ScreenPilot
