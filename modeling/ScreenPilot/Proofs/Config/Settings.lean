import ScreenPilot.Config.Settings
import ScreenPilot.Proofs.Json.Values
import ScreenPilot.Proofs.Toml.Records

/-!
# Settings that are read

Each section of the configuration, and the configuration itself, is read part by part, and its
form is described by its parts (`TaskerSettings.form_describes` and so on). So what is deleted from
a table is reset, and nothing else is (`EngineConfig.read_deletion`).

Not every value can be written as TOML: a number may have too many bits, and a path may be no text.
But whatever is read from a table can be written (`EngineConfig.isStorable_of_read`).
-/

set_option autoImplicit false

namespace ScreenPilot

open Toml

/-! ## Values -/

namespace Toml

theorem readsPlain_bool : ReadsPlain Decode.bool := by
  intro value flag reads
  have given := Decode.bool_eq_ok_iff.mp reads
  cases value <;> trivial

theorem readsPlain_text : ReadsPlain Decode.text := by
  intro value text reads
  have given := Decode.text_eq_ok_iff.mp reads
  cases value <;> trivial

theorem readsPlain_uint64 : ReadsPlain Decode.uint64 := by
  intro value number reads
  obtain ⟨written, given, -⟩ := Decode.uint64_eq_ok_iff.mp reads
  cases value <;> trivial

theorem readsPlain_uint32 : ReadsPlain Decode.uint32 := by
  intro value number reads
  obtain ⟨written, given, -⟩ := Decode.uint32_eq_ok_iff.mp reads
  cases value <;> trivial

/-- No TOML value stands for nothing. -/
theorem optional_eq_ok_iff {β : Type} {read : Reads β} {value : Toml} {given : Option β} :
    Decode.optional read value.toJson = .ok given ↔
      ∃ found, read value.toJson = .ok found ∧ given = some found := by
  have same : Decode.optional read value.toJson = (read value.toJson).map some := by
    cases value <;> rfl
  rw [same, map_eq_ok_iff]

theorem readsPlain_optional {β : Type} {read : Reads β} (plain : ReadsPlain read) :
    ReadsPlain (Decode.optional read) := by
  intro value given reads
  obtain ⟨found, reads, -⟩ := optional_eq_ok_iff.mp reads
  exact plain value found reads

end Toml

namespace LogSettings

theorem readPath_eq_ok_iff {value : Json} {path : RawPath} :
    readPath value = .ok path ↔ ∃ text, value = .string text ∧ path = .ofText text := by
  rw [readPath, map_eq_ok_iff]
  cases value <;> simp [Decode.textAs]

theorem readsPlain_readPath : ReadsPlain readPath := by
  intro value path reads
  obtain ⟨text, given, -⟩ := readPath_eq_ok_iff.mp reads
  cases value <;> trivial

end LogSettings

/-! ## Parts -/

namespace TaskerSettings

/-- The parts of the section of the tasker. -/
def parts : List (RecordPart TaskerSettings) :=
  [.of "debug_mode" Decode.bool debugMode fun debugMode settings => { settings with debugMode },
   .of "stop_poll_interval_ms" Decode.uint64 stopPollMs
     fun stopPollMs settings => { settings with stopPollMs }]

theorem form_describes : form.Describes (fun _ => True) parts fun _ => () := by
  refine .of_forall (.cons .of_read <| .cons .of_read .nil) (by decide) (by decide)
    (by and_intros <;> exact fun _ _ => rfl) ?apart ?ext
  case apart =>
    simp only [parts, List.pairwise_cons, List.forall_mem_cons, List.not_mem_nil, false_implies,
      implies_true, List.Pairwise.nil, and_true]
    exact ⟨fun _ _ => rfl, fun _ _ => rfl⟩
  case ext =>
    rintro ⟨_, _⟩ ⟨_, _⟩ ⟨rfl, rfl⟩
    rfl

/-- The settings, but those whose keys are gone as by default. -/
def reset (gone : List String → Bool) (settings : TaskerSettings) : TaskerSettings where
  debugMode := if gone ["debug_mode"] then debugMode default else settings.debugMode
  stopPollMs := if gone ["stop_poll_interval_ms"] then stopPollMs default else settings.stopPollMs

theorem reset_default (gone : List String → Bool) : reset gone default = default := by
  simp only [reset, ite_self]

theorem resets_read : Resets (form.read default true) reset := by
  refine Toml.resets_section form_describes rfl ⟨?_, ?_⟩ ⟨?_, ?_⟩ fun _ => rfl
  · exact carries_plain readsPlain_bool fun _ _ => rfl
  · exact carries_plain readsPlain_uint64 fun _ _ => rfl
  · exact setsPlain_of readsPlain_bool
  · exact setsPlain_of readsPlain_uint64

end TaskerSettings

namespace LogSettings

/-- The parts of the section of the log. -/
def parts : List (RecordPart LogSettings) :=
  [.of "filter" Decode.text LogSettings.filter fun filter settings => { settings with filter },
   .of "log_dir" (Decode.optional readPath) logDir fun logDir settings => { settings with logDir },
   .of "file_prefix" Decode.text filePrefix
     fun filePrefix settings => { settings with filePrefix },
   .of "ansi" Decode.bool ansi fun ansi settings => { settings with ansi }]

theorem form_describes : form.Describes (fun _ => True) parts fun _ => () := by
  refine .of_forall (.cons .of_read <| .cons .of_read <| .cons .of_read <| .cons .of_read .nil)
    (by decide) (by decide) (by and_intros <;> exact fun _ _ => rfl) ?apart ?ext
  case apart =>
    simp only [parts, List.pairwise_cons, List.forall_mem_cons, List.not_mem_nil, false_implies,
      implies_true, List.Pairwise.nil, and_true]
    and_intros
    all_goals exact ⟨fun _ _ => rfl, fun _ _ => rfl⟩
  case ext =>
    rintro ⟨_, _, _, _⟩ ⟨_, _, _, _⟩ ⟨rfl, rfl, rfl, rfl⟩
    rfl

/-- The settings, but those whose keys are gone as by default. -/
def reset (gone : List String → Bool) (settings : LogSettings) : LogSettings where
  filter := if gone ["filter"] then LogSettings.filter default else settings.filter
  logDir := if gone ["log_dir"] then logDir default else settings.logDir
  filePrefix := if gone ["file_prefix"] then filePrefix default else settings.filePrefix
  ansi := if gone ["ansi"] then ansi default else settings.ansi

theorem reset_default (gone : List String → Bool) : reset gone default = default := by
  simp only [reset, ite_self]

theorem resets_read : Resets (form.read default true) reset := by
  refine Toml.resets_section form_describes rfl ⟨?_, ?_, ?_, ?_⟩ ⟨?_, ?_, ?_, ?_⟩ fun _ => rfl
  · exact carries_plain readsPlain_text fun _ _ => rfl
  · exact carries_plain (readsPlain_optional readsPlain_readPath) fun _ _ => rfl
  · exact carries_plain readsPlain_text fun _ _ => rfl
  · exact carries_plain readsPlain_bool fun _ _ => rfl
  · exact setsPlain_of readsPlain_text
  · exact setsPlain_of (readsPlain_optional readsPlain_readPath)
  · exact setsPlain_of readsPlain_text
  · exact setsPlain_of readsPlain_bool

end LogSettings

namespace NodeDefaults

/-- The parts of the section of the defaults of nodes. -/
def parts : List (RecordPart NodeDefaults) :=
  [.of "reco_timeout_ms" Decode.uint64 timeoutMs
     fun timeoutMs defaults => { defaults with timeoutMs },
   .of "rate_limit_ms" Decode.uint64 rateLimitMs
     fun rateLimitMs defaults => { defaults with rateLimitMs },
   .of "pre_delay_ms" Decode.uint64 preDelayMs
     fun preDelayMs defaults => { defaults with preDelayMs },
   .of "post_delay_ms" Decode.uint64 postDelayMs
     fun postDelayMs defaults => { defaults with postDelayMs },
   .of "max_hit" (Decode.optional Decode.uint32) maxHit
     fun maxHit defaults => { defaults with maxHit }]

theorem form_describes : form.Describes (fun _ => True) parts fun _ => () := by
  refine .of_forall (.cons .of_read <| .cons .of_read <| .cons .of_read <| .cons .of_read <|
    .cons .of_read .nil) (by decide) (by decide) (by and_intros <;> exact fun _ _ => rfl)
    ?apart ?ext
  case apart =>
    simp only [parts, List.pairwise_cons, List.forall_mem_cons, List.not_mem_nil, false_implies,
      implies_true, List.Pairwise.nil, and_true]
    and_intros
    all_goals exact ⟨fun _ _ => rfl, fun _ _ => rfl⟩
  case ext =>
    rintro ⟨_, _, _, _, _⟩ ⟨_, _, _, _, _⟩ ⟨rfl, rfl, rfl, rfl, rfl⟩
    rfl

/-- The values, but those whose keys are gone as by default. -/
def reset (gone : List String → Bool) (defaults : NodeDefaults) : NodeDefaults where
  timeoutMs := if gone ["reco_timeout_ms"] then timeoutMs default else defaults.timeoutMs
  rateLimitMs := if gone ["rate_limit_ms"] then rateLimitMs default else defaults.rateLimitMs
  preDelayMs := if gone ["pre_delay_ms"] then preDelayMs default else defaults.preDelayMs
  postDelayMs := if gone ["post_delay_ms"] then postDelayMs default else defaults.postDelayMs
  maxHit := if gone ["max_hit"] then maxHit default else defaults.maxHit

theorem reset_default (gone : List String → Bool) : reset gone default = default := by
  simp only [reset, ite_self]

theorem resets_read : Resets (form.read default true) reset := by
  have numbers {key : String} {presence : Presence} {put : UInt64 → NodeDefaults → NodeDefaults} :
      SetsPlain (.of key presence Decode.uint64 put) := setsPlain_of readsPlain_uint64
  refine Toml.resets_section form_describes rfl ⟨?_, ?_, ?_, ?_, ?_⟩
    ⟨numbers, numbers, numbers, numbers, ?_⟩ fun _ => rfl
  · exact carries_plain readsPlain_uint64 fun _ _ => rfl
  · exact carries_plain readsPlain_uint64 fun _ _ => rfl
  · exact carries_plain readsPlain_uint64 fun _ _ => rfl
  · exact carries_plain readsPlain_uint64 fun _ _ => rfl
  · exact carries_plain (readsPlain_optional readsPlain_uint32) fun _ _ => rfl
  · exact setsPlain_of (readsPlain_optional readsPlain_uint32)

end NodeDefaults

/-! ## The whole configuration -/

namespace EngineConfig

/-- The sections of a configuration. -/
def parts : List (RecordPart EngineConfig) :=
  [.of "tasker" (TaskerSettings.form.read default true) tasker
     fun tasker config => { config with tasker },
   .of "logging" (LogSettings.form.read default true) logging
     fun logging config => { config with logging },
   .of "defaults" (NodeDefaults.form.read default true) defaults
     fun defaults config => { config with defaults }]

theorem form_describes : (form true).Describes (fun _ => True) parts fun _ => () := by
  refine .of_forall (.cons .of_read <| .cons .of_read <| .cons .of_read .nil) (by decide)
    (by decide) (by and_intros <;> exact fun _ _ => rfl) ?apart ?ext
  case apart =>
    simp only [parts, List.pairwise_cons, List.forall_mem_cons, List.not_mem_nil, false_implies,
      implies_true, List.Pairwise.nil, and_true]
    and_intros
    all_goals exact ⟨fun _ _ => rfl, fun _ _ => rfl⟩
  case ext =>
    rintro ⟨_, _, _⟩ ⟨_, _, _⟩ ⟨rfl, rfl, rfl⟩
    rfl

/-- The configuration, but for sections and settings whose paths are gone, which are as by
default. -/
def reset (gone : List String → Bool) (config : EngineConfig) : EngineConfig where
  tasker :=
    if gone ["tasker"] then default
    else config.tasker.reset fun path => gone ("tasker" :: path)
  logging :=
    if gone ["logging"] then default
    else config.logging.reset fun path => gone ("logging" :: path)
  defaults :=
    if gone ["defaults"] then default
    else config.defaults.reset fun path => gone ("defaults" :: path)

/-- **When keys are deleted from a table, the configuration is reset.** -/
theorem read_deletion {entries entries' : List (String × Toml)}
    (sound : Toml.Sound (.table entries))
    (deletion : Toml.Deletion (.table entries) (.table entries')) {config : EngineConfig}
    (reads : read true (Toml.table entries).toJson = .ok config) :
    read true (Toml.table entries').toJson =
      .ok (config.reset (Toml.deleted (.table entries) (.table entries'))) := by
  refine Toml.resets_table form_describes rfl ⟨?tasker, ?logging, ?defaults⟩ sound deletion reads
  case tasker =>
    exact carries_of TaskerSettings.resets_read TaskerSettings.reset_default fun _ _ => rfl
  case logging =>
    exact carries_of LogSettings.resets_read LogSettings.reset_default fun _ _ => rfl
  case defaults =>
    exact carries_of NodeDefaults.resets_read NodeDefaults.reset_default fun _ _ => rfl

end EngineConfig

/-! ## What can be written -/

namespace RawPath

/-- A text is a path that is a text. -/
theorem text?_ofText (text : String) : (ofText text).text? = some text :=
  dif_pos text.isValidUTF8

/-- A path that is a text is that of its text. -/
theorem eq_ofText_of_text? {path : RawPath} {text : String} (isText : path.text? = some text) :
    path = ofText text := by
  unfold text? String.fromUTF8? at isText
  split at isText
  · cases isText
    rfl
  · exact nomatch isText

end RawPath

/-- The stop interval has at most sixty-three bits. -/
structure TaskerSettings.IsStorable (settings : TaskerSettings) : Prop where
  stopPollMs : settings.stopPollMs.toNat ≤ Int64.maxValue.toInt

/-- There is no directory for log files, or its path is a text. -/
structure LogSettings.IsStorable (settings : LogSettings) : Prop where
  logDir : ∀ path, settings.logDir = some path → ∃ text, path.text? = some text

/-- All times have at most sixty-three bits. -/
structure NodeDefaults.IsStorable (defaults : NodeDefaults) : Prop where
  timeoutMs : defaults.timeoutMs.toNat ≤ Int64.maxValue.toInt
  rateLimitMs : defaults.rateLimitMs.toNat ≤ Int64.maxValue.toInt
  preDelayMs : defaults.preDelayMs.toNat ≤ Int64.maxValue.toInt
  postDelayMs : defaults.postDelayMs.toNat ≤ Int64.maxValue.toInt

/-- Whole numbers of the configuration have at most sixty-three bits, and paths are texts. -/
structure EngineConfig.IsStorable (config : EngineConfig) : Prop where
  tasker : config.tasker.IsStorable
  logging : config.logging.IsStorable
  defaults : config.defaults.IsStorable

/-- A number that is read from a sound value has at most sixty-three bits. -/
theorem Toml.Given.uint64_le {value : Json} (given : Given value) {number : UInt64}
    (reads : Decode.uint64 value = .ok number) : number.toNat ≤ Int64.maxValue.toInt := by
  obtain ⟨value, sound, rfl⟩ := given
  obtain ⟨written, same, -, -, isNumber⟩ := Decode.uint64_eq_ok_iff.mp reads
  rw [isNumber]
  cases sound with
  | integer low high => exact Json.integer.inj same ▸ high
  | _ => exact nomatch same

/-- What is read from an optional field of a sound table is read from a sound value. -/
theorem Toml.Given.optional {β : Type} {read : Reads β} {value : Json} (given : Given value)
    {found : Option β} (reads : Decode.optional read value = .ok found) :
    ∃ new, read value = .ok new ∧ found = some new := by
  obtain ⟨value, -, rfl⟩ := given
  exact optional_eq_ok_iff.mp reads

section Storable

variable {value : Json}

/-- A section of the tasker that is read can be written. -/
theorem TaskerSettings.isStorable_of_read (within : value.Within Given)
    {settings : TaskerSettings} (reads : form.read default true value = .ok settings) :
    settings.IsStorable := by
  have fields : form.fields.Forall (FieldForm.Keeps Given IsStorable) := by
    refine ⟨FieldForm.keeps_of ?debugMode, FieldForm.keeps_of ?stopPollMs⟩
    case debugMode => exact fun _ _ _ _ _ storable => ⟨storable.stopPollMs⟩
    case stopPollMs => exact fun _ _ _ given reads _ => ⟨given.uint64_le reads⟩
  exact RecordForm.read_keeps (List.forall_iff_forall_mem.mp fields) within reads ⟨by decide⟩

/-- A section of the log that is read can be written. -/
theorem LogSettings.isStorable_of_read (within : value.Within Given) {settings : LogSettings}
    (reads : form.read default true value = .ok settings) : settings.IsStorable := by
  have fields : form.fields.Forall (FieldForm.Keeps Given IsStorable) := by
    refine ⟨FieldForm.keeps_of ?filter, FieldForm.keeps_of ?logDir, FieldForm.keeps_of ?filePrefix,
      FieldForm.keeps_of ?ansi⟩
    case logDir =>
      intro value logDir settings given reads _
      refine ⟨fun path isPath => ?_⟩
      obtain ⟨found, isFound, rfl⟩ := given.optional reads
      obtain ⟨text, -, rfl⟩ := readPath_eq_ok_iff.mp isFound
      cases isPath
      exact ⟨text, RawPath.text?_ofText text⟩
    all_goals exact fun _ _ _ _ _ storable => ⟨storable.logDir⟩
  exact RecordForm.read_keeps (List.forall_iff_forall_mem.mp fields) within reads ⟨nofun⟩

/-- A section of the defaults of nodes that is read can be written. -/
theorem NodeDefaults.isStorable_of_read (within : value.Within Given) {defaults : NodeDefaults}
    (reads : form.read default true value = .ok defaults) : defaults.IsStorable := by
  have fields : form.fields.Forall (FieldForm.Keeps Given IsStorable) := by
    refine ⟨FieldForm.keeps_of ?timeoutMs, FieldForm.keeps_of ?rateLimitMs,
      FieldForm.keeps_of ?preDelayMs, FieldForm.keeps_of ?postDelayMs, FieldForm.keeps_of ?maxHit⟩
    case timeoutMs =>
      exact fun _ _ _ given reads storable => { storable with timeoutMs := given.uint64_le reads }
    case rateLimitMs =>
      exact fun _ _ _ given reads storable => { storable with rateLimitMs := given.uint64_le reads }
    case preDelayMs =>
      exact fun _ _ _ given reads storable => { storable with preDelayMs := given.uint64_le reads }
    case postDelayMs =>
      exact fun _ _ _ given reads storable => { storable with postDelayMs := given.uint64_le reads }
    case maxHit => exact fun _ _ _ _ _ storable => { storable with }
  have start : IsStorable default := ⟨by decide, by decide, by decide, by decide⟩
  exact RecordForm.read_keeps (List.forall_iff_forall_mem.mp fields) within reads start

/-- **A configuration that is read from a table can be written.** -/
theorem EngineConfig.isStorable_of_read {table : Toml} (sound : table.Sound)
    {config : EngineConfig} (reads : read true table.toJson = .ok config) : config.IsStorable := by
  have inner {value : Json} (given : Given value) : value.Within Given := by
    obtain ⟨value, sound, rfl⟩ := given
    exact sound.within
  have fields : (form true).fields.Forall (FieldForm.Keeps Given IsStorable) := by
    refine ⟨FieldForm.keeps_of ?tasker, FieldForm.keeps_of ?logging, FieldForm.keeps_of ?defaults⟩
    case tasker =>
      exact fun _ _ _ given reads storable =>
        { storable with tasker := TaskerSettings.isStorable_of_read (inner given) reads }
    case logging =>
      exact fun _ _ _ given reads storable =>
        { storable with logging := LogSettings.isStorable_of_read (inner given) reads }
    case defaults =>
      exact fun _ _ _ given reads storable =>
        { storable with defaults := NodeDefaults.isStorable_of_read (inner given) reads }
  have start : IsStorable default :=
    ⟨⟨by decide⟩, ⟨nofun⟩, ⟨by decide, by decide, by decide, by decide⟩⟩
  exact RecordForm.read_keeps (List.forall_iff_forall_mem.mp fields) sound.within reads start

end Storable

end ScreenPilot
