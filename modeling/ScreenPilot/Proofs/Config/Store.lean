import ScreenPilot.Config.Store
import ScreenPilot.Proofs.Config.Settings
import ScreenPilot.Proofs.Files.Trees

/-!
# The configuration is kept

A configuration can be written exactly if its numbers have at most sixty-three bits and its paths
are texts (`EngineConfig.exists_text_iff`), and what is written is read back
(`EngineConfig.ofText_text`). So, in surroundings that keep files, a configuration that is saved is
loaded again, and one that cannot be written is not saved, before any file is touched.

Keys that are deleted from a document change the settings they are about, and no others
(`EngineConfig.ofText_deletion`). What is left of a text need not be a document, but what is left of
a sheet is one (`EngineConfig.ofText_without`).
-/

set_option autoImplicit false

namespace ScreenPilot

open Toml

/-! ## Values -/

namespace Toml.Scalar

variable {value : Scalar}

theorem ofUInt64_eq_ok_iff {number : UInt64} :
    ofUInt64 number = .ok value ↔
      number.toNat ≤ Int64.maxValue.toInt ∧ value = .integer (.ofNat number.toNat) := by
  rw [ofUInt64]
  split
  case isTrue fits => simp [fits, eq_comm]
  case isFalse unfit => simp [unfit]

theorem ofPath_eq_ok_iff {path : RawPath} :
    ofPath path = .ok value ↔ ∃ text, path.text? = some text ∧ value = .string text := by
  rw [ofPath]
  cases path.text? with
  | none => simp
  | some text => simp [eq_comm]

theorem uint64_of_ofUInt64 {number : UInt64} (written : ofUInt64 number = .ok value) :
    Decode.uint64 value.toToml.toJson = .ok number := by
  obtain ⟨fits, rfl⟩ := ofUInt64_eq_ok_iff.mp written
  have greatest : Int64.maxValue.toInt = 2 ^ 63 - 1 := by decide
  have same : (Int64.ofNat number.toNat).toInt = number.toNat :=
    Int64.toInt_ofNat_of_lt (by omega)
  have small : number.toNat < UInt64.size := number.toNat_lt
  exact Decode.uint64_eq_ok_iff.mpr ⟨_, rfl, by omega, by omega, same.symm⟩

theorem uint32_ofUInt32 (number : UInt32) :
    Decode.uint32 (ofUInt32 number).toToml.toJson = .ok number := by
  have small : number.toNat < UInt32.size := number.toNat_lt
  have same : (Int64.ofNat number.toNat).toInt = number.toNat :=
    Int64.toInt_ofNat_of_lt (small.trans (by decide))
  exact Decode.uint32_eq_ok_iff.mpr ⟨_, rfl, by omega, by omega, same.symm⟩

theorem readPath_of_ofPath {path : RawPath} (written : ofPath path = .ok value) :
    LogSettings.readPath value.toToml.toJson = .ok path := by
  obtain ⟨text, isText, rfl⟩ := ofPath_eq_ok_iff.mp written
  exact LogSettings.readPath_eq_ok_iff.mpr ⟨text, rfl, RawPath.eq_ofText_of_text? isText⟩

end Toml.Scalar

/-! ## Sections -/

theorem Toml.keys_scalars (written : List (String × Scalar)) :
    (scalars written).map Prod.fst = written.map Prod.fst := by
  rw [scalars, List.map_map]
  rfl

/-- What is written under a name is read as a record. -/
structure Toml.Holds {α : Type} (written : Section) (name : String) (form : RecordForm α)
    (start record : α) : Prop where
  name : written.1 = name
  bare : ∀ pair ∈ written.2, IsBare pair.1
  once : (written.2.map Prod.fst).Nodup
  reads : form.readEntries start (entriesToJson (scalars written.2)) = .ok record

/-- A name that needs no quotation marks. -/
theorem Toml.isBare_of_all {name : String}
    (proper : name.toList ≠ [] ∧ name.toList.all isBareKey = true) : IsBare name :=
  ⟨proper.1, List.all_eq_true.mp proper.2⟩

/-- A section holds a record if its pairs say what each part is. -/
theorem Toml.Holds.of_follows {α : Type} {form : RecordForm α} {parts : List (RecordPart α)}
    {start record : α} {name : String} {pairs : List (String × Scalar)}
    (describes : form.Describes (fun _ => True) parts fun _ => ()) (isOpen : form.isClosed = false)
    (keys : List String) (proper : keys.Nodup)
    (bare : ∀ key ∈ keys, key.toList ≠ [] ∧ key.toList.all isBareKey = true)
    (within : (pairs.map Prod.fst).Sublist keys)
    (follows : parts.Forall fun part =>
      part.Follows ((entriesToJson (scalars pairs)).lookup part.key) start record) :
    Holds (name, pairs) name form start record := by
  refine ⟨rfl, fun pair member => ?_, proper.sublist within, ?_⟩
  · exact isBare_of_all (bare pair.1 (within.subset (List.mem_map_of_mem member)))
  · exact readEntries_of_follows describes isOpen (keys_scalars pairs ▸ proper.sublist within)
      (List.forall_iff_forall_mem.mp follows)

namespace EngineConfig

variable {written : Toml.Section}

theorem taskerSection_eq_ok_iff {settings : TaskerSettings} :
    taskerSection settings = .ok written ↔ ∃ stopPollMs,
      Scalar.ofUInt64 settings.stopPollMs = .ok stopPollMs ∧
      ("tasker", [("debug_mode", Scalar.bool settings.debugMode),
        ("stop_poll_interval_ms", stopPollMs)]) = written := by
  rw [taskerSection, bind_eq_ok_iff]
  exact exists_congr fun _ => and_congr_right fun _ => ⟨Except.ok.inj, congrArg Except.ok⟩

theorem loggingSection_eq_ok_iff {settings : LogSettings} :
    loggingSection settings = .ok written ↔ ∃ logDir,
      settings.logDir.mapM Scalar.ofPath = .ok logDir ∧
      ("logging", [("filter", Scalar.string settings.filter)] ++
        (logDir.map ("log_dir", ·)).toList ++
        [("file_prefix", .string settings.filePrefix), ("ansi", .bool settings.ansi)]) =
          written := by
  rw [loggingSection, bind_eq_ok_iff]
  exact exists_congr fun _ => and_congr_right fun _ => ⟨Except.ok.inj, congrArg Except.ok⟩

theorem defaultsSection_eq_ok_iff {defaults : NodeDefaults} :
    defaultsSection defaults = .ok written ↔ ∃ timeoutMs rateLimitMs preDelayMs postDelayMs,
      Scalar.ofUInt64 defaults.timeoutMs = .ok timeoutMs ∧
      Scalar.ofUInt64 defaults.rateLimitMs = .ok rateLimitMs ∧
      Scalar.ofUInt64 defaults.preDelayMs = .ok preDelayMs ∧
      Scalar.ofUInt64 defaults.postDelayMs = .ok postDelayMs ∧
      ("defaults", [("reco_timeout_ms", timeoutMs), ("rate_limit_ms", rateLimitMs),
        ("pre_delay_ms", preDelayMs), ("post_delay_ms", postDelayMs)] ++
        (defaults.maxHit.map fun limit => ("max_hit", Scalar.ofUInt32 limit)).toList) =
          written := by
  rw [defaultsSection]
  simp only [bind_eq_ok_iff, exists_and_left]
  refine exists_congr fun _ => and_congr_right fun _ => exists_congr fun _ =>
    and_congr_right fun _ => exists_congr fun _ => and_congr_right fun _ =>
    exists_congr fun _ => and_congr_right fun _ => ⟨Except.ok.inj, congrArg Except.ok⟩

theorem mapM_eq_ok_iff {ε α β : Type} {write : α → Except ε β} {given : Option α}
    {written : Option β} : given.mapM write = .ok written ↔
      (given = none ∧ written = none) ∨
      ∃ value new, given = some value ∧ write value = .ok new ∧ written = some new := by
  cases given with
  | none => simp [pure, Except.pure, eq_comm]
  | some value =>
    show (write value).map some = _ ↔ _
    simp [map_eq_ok_iff]

/-- A section of the tasker that is written is read back. -/
theorem holds_tasker {settings : TaskerSettings}
    (isWritten : taskerSection settings = .ok written) :
    Holds written "tasker" TaskerSettings.form default settings := by
  obtain ⟨stopPollMs, isNumber, rfl⟩ := taskerSection_eq_ok_iff.mp isWritten
  refine .of_follows TaskerSettings.form_describes rfl ["debug_mode", "stop_poll_interval_ms"]
    (by decide) (by decide) (.refl _) ?_
  simp only [TaskerSettings.parts, List.Forall]
  refine ⟨?_, ?_⟩
  · exact (RecordPart.follows_some_iff rfl).mpr rfl
  · exact (RecordPart.follows_some_iff rfl).mpr (Scalar.uint64_of_ofUInt64 isNumber)

/-- A section of the log that is written is read back. -/
theorem holds_logging {settings : LogSettings} (isWritten : loggingSection settings = .ok written) :
    Holds written "logging" LogSettings.form default settings := by
  obtain ⟨logDir, isPath, rfl⟩ := loggingSection_eq_ok_iff.mp isWritten
  refine .of_follows LogSettings.form_describes rfl ["filter", "log_dir", "file_prefix", "ansi"]
    (by decide) (by decide) (by cases logDir <;> simp) ?_
  simp only [LogSettings.parts, List.Forall]
  refine ⟨?_, ?_, ?_, ?_⟩
  · exact (RecordPart.follows_some_iff rfl).mpr rfl
  · rcases mapM_eq_ok_iff.mp isPath with ⟨isNone, rfl⟩ | ⟨path, value, isSome, isValue, rfl⟩
    · exact (RecordPart.follows_none_iff rfl).mpr isNone
    · refine (RecordPart.follows_some_iff rfl).mpr (optional_eq_ok_iff.mpr ⟨path, ?_, isSome⟩)
      exact Scalar.readPath_of_ofPath isValue
  -- what is found behind the directory does not depend on whether there is one
  · exact (RecordPart.follows_some_iff (by cases logDir <;> rfl)).mpr rfl
  · exact (RecordPart.follows_some_iff (by cases logDir <;> rfl)).mpr rfl

/-- A section of the defaults of nodes that is written is read back. -/
theorem holds_defaults {defaults : NodeDefaults}
    (isWritten : defaultsSection defaults = .ok written) :
    Holds written "defaults" NodeDefaults.form default defaults := by
  obtain ⟨timeoutMs, rateLimitMs, preDelayMs, postDelayMs, isTimeout, isRateLimit, isPreDelay,
    isPostDelay, rfl⟩ := defaultsSection_eq_ok_iff.mp isWritten
  refine .of_follows NodeDefaults.form_describes rfl
    ["reco_timeout_ms", "rate_limit_ms", "pre_delay_ms", "post_delay_ms", "max_hit"]
    (by decide) (by decide) (by cases defaults.maxHit <;> simp) ?_
  simp only [NodeDefaults.parts, List.Forall]
  refine ⟨?_, ?_, ?_, ?_, ?_⟩
  · exact (RecordPart.follows_some_iff rfl).mpr (Scalar.uint64_of_ofUInt64 isTimeout)
  · exact (RecordPart.follows_some_iff rfl).mpr (Scalar.uint64_of_ofUInt64 isRateLimit)
  · exact (RecordPart.follows_some_iff rfl).mpr (Scalar.uint64_of_ofUInt64 isPreDelay)
  · exact (RecordPart.follows_some_iff rfl).mpr (Scalar.uint64_of_ofUInt64 isPostDelay)
  · cases isLimit : defaults.maxHit with
    | none => exact (RecordPart.follows_none_iff rfl).mpr isLimit
    | some limit =>
      refine (RecordPart.follows_some_iff rfl).mpr (optional_eq_ok_iff.mpr ⟨limit, ?_, isLimit⟩)
      exact Scalar.uint32_ofUInt32 limit

/-! ## What can be written -/

theorem exists_taskerSection_iff {settings : TaskerSettings} :
    (∃ written, taskerSection settings = .ok written) ↔ settings.IsStorable := by
  simp only [taskerSection_eq_ok_iff, Scalar.ofUInt64_eq_ok_iff]
  constructor
  · rintro ⟨_, _, ⟨fits, -⟩, -⟩
    exact ⟨fits⟩
  · rintro ⟨fits⟩
    exact ⟨_, _, ⟨fits, rfl⟩, rfl⟩

theorem exists_loggingSection_iff {settings : LogSettings} :
    (∃ written, loggingSection settings = .ok written) ↔ settings.IsStorable := by
  simp only [loggingSection_eq_ok_iff, mapM_eq_ok_iff, Scalar.ofPath_eq_ok_iff]
  constructor
  · rintro ⟨_, _, ⟨isNone, -⟩ | ⟨path, _, isSome, ⟨text, isText, -⟩, -⟩, -⟩
    · exact ⟨fun path isSome => nomatch isNone.symm.trans isSome⟩
    · refine ⟨fun path' isSome' => ⟨text, ?_⟩⟩
      rwa [← Option.some.inj (isSome.symm.trans isSome')]
  · rintro ⟨isText⟩
    cases isDir : settings.logDir with
    | none => exact ⟨_, _, .inl ⟨rfl, rfl⟩, rfl⟩
    | some path =>
      obtain ⟨text, isText⟩ := isText path isDir
      exact ⟨_, _, .inr ⟨path, _, rfl, ⟨text, isText, rfl⟩, rfl⟩, rfl⟩

theorem exists_defaultsSection_iff {defaults : NodeDefaults} :
    (∃ written, defaultsSection defaults = .ok written) ↔ defaults.IsStorable := by
  simp only [defaultsSection_eq_ok_iff, Scalar.ofUInt64_eq_ok_iff]
  constructor
  · rintro ⟨_, _, _, _, _, ⟨timeout, -⟩, ⟨rateLimit, -⟩, ⟨preDelay, -⟩, ⟨postDelay, -⟩, -⟩
    exact ⟨timeout, rateLimit, preDelay, postDelay⟩
  · rintro ⟨timeout, rateLimit, preDelay, postDelay⟩
    exact ⟨_, _, _, _, _, ⟨timeout, rfl⟩, ⟨rateLimit, rfl⟩, ⟨preDelay, rfl⟩, ⟨postDelay, rfl⟩, rfl⟩

theorem text_eq_ok_iff {config : EngineConfig} {document : String} :
    config.text = .ok document ↔ ∃ tasker logging defaults,
      taskerSection config.tasker = .ok tasker ∧ loggingSection config.logging = .ok logging ∧
      defaultsSection config.defaults = .ok defaults ∧
      writeSections [tasker, logging, defaults] = document := by
  rw [text]
  simp only [bind_eq_ok_iff, exists_and_left]
  exact exists_congr fun _ => and_congr_right fun _ => exists_congr fun _ =>
    and_congr_right fun _ => exists_congr fun _ => and_congr_right fun _ =>
    ⟨Except.ok.inj, congrArg Except.ok⟩

/-- **Which configurations can be written.** -/
theorem exists_text_iff {config : EngineConfig} :
    (∃ document, config.text = .ok document) ↔ config.IsStorable := by
  simp only [text_eq_ok_iff]
  constructor
  · rintro ⟨_, _, _, _, tasker, logging, defaults, -⟩
    exact ⟨exists_taskerSection_iff.mp ⟨_, tasker⟩, exists_loggingSection_iff.mp ⟨_, logging⟩,
      exists_defaultsSection_iff.mp ⟨_, defaults⟩⟩
  · rintro ⟨tasker, logging, defaults⟩
    obtain ⟨_, tasker⟩ := exists_taskerSection_iff.mpr tasker
    obtain ⟨_, logging⟩ := exists_loggingSection_iff.mpr logging
    obtain ⟨_, defaults⟩ := exists_defaultsSection_iff.mpr defaults
    exact ⟨_, _, _, _, tasker, logging, defaults, rfl⟩

/-! ## Documents -/

variable {document : String} {config : EngineConfig}

theorem ofText_eq_ok_iff : ofText document = .ok config ↔
    ∃ table, parse? document = some table ∧ read true table.toJson = .ok config := by
  rw [ofText]
  cases parse? document with
  | none => simp
  | some table =>
    cases reads : read true table.toJson with
    | error cause => simp [reads]
    | ok found => simp [reads]

theorem ofText_of_toOption (found : (ofText document).toOption = some config) :
    ofText document = .ok config := by
  cases reads : ofText document with
  | error cause => simp [reads, Except.toOption] at found
  | ok config => simpa [reads, Except.toOption] using found

/-- **What is written is read back.** -/
theorem ofText_text (isText : config.text = .ok document) : ofText document = .ok config := by
  obtain ⟨⟨_, tasker⟩, ⟨_, logging⟩, ⟨_, defaults⟩, isTasker, isLogging, isDefaults, rfl⟩ :=
    text_eq_ok_iff.mp isText
  obtain ⟨rfl, bare, once, reads⟩ := holds_tasker isTasker
  obtain ⟨rfl, bare', once', reads'⟩ := holds_logging isLogging
  obtain ⟨rfl, bare'', once'', reads''⟩ := holds_defaults isDefaults
  have names : ["tasker", "logging", "defaults"].Nodup := by decide
  have isBare : IsBare "tasker" ∧ IsBare "logging" ∧ IsBare "defaults" :=
    ⟨isBare_of_all (by decide), isBare_of_all (by decide), isBare_of_all (by decide)⟩
  refine ofText_eq_ok_iff.mpr ⟨_, parse?_writeSections ?bare names ?once, ?reads⟩
  case bare =>
    simp only [List.forall_mem_cons, List.not_mem_nil, false_implies, implies_true, and_true]
    exact ⟨⟨isBare.1, bare⟩, ⟨isBare.2.1, bare'⟩, ⟨isBare.2.2, bare''⟩⟩
  case once =>
    simp only [List.forall_mem_cons, List.not_mem_nil, false_implies, implies_true, and_true]
    exact ⟨once, once', once''⟩
  case reads =>
    refine readEntries_of_follows form_describes rfl ?_ (List.forall_iff_forall_mem.mp ?_)
    · exact names
    · simp only [parts, List.Forall]
      exact ⟨(RecordPart.follows_some_iff rfl).mpr reads,
        (RecordPart.follows_some_iff rfl).mpr reads',
        (RecordPart.follows_some_iff rfl).mpr reads''⟩

/-- A configuration that is read can be written. -/
theorem isStorable_of_ofText (reads : ofText document = .ok config) : config.IsStorable := by
  obtain ⟨table, isTable, reads⟩ := ofText_eq_ok_iff.mp reads
  exact isStorable_of_read (parse?_sound isTable) reads

/-- **Keys that are deleted change the settings they are about.** -/
theorem ofText_deletion {document' : String} {table table' : Toml}
    (isTable : parse? document = some table) (isTable' : parse? document' = some table')
    (deletion : table.Deletion table') (reads : ofText document = .ok config) :
    ofText document' = .ok (config.reset (table.deleted table')) := by
  obtain ⟨_, same, reads⟩ := ofText_eq_ok_iff.mp reads
  obtain rfl := Option.some.inj (isTable.symm.trans same)
  obtain ⟨entries, rfl⟩ := exists_of_parse? isTable
  obtain ⟨entries', rfl⟩ := exists_of_parse? isTable'
  exact ofText_eq_ok_iff.mpr ⟨_, isTable', read_deletion (parse?_sound isTable) deletion reads⟩

/-- **Lines and headers that are taken out of a sheet change the settings they are about.** -/
theorem ofText_without {sheet sheet' : Sheet} {document' : String}
    (isDocument : sheet.IsDocument document) (isDocument' : sheet'.IsDocument document')
    (deletion : sheet.Deletion sheet') (reads : ofText document = .ok config) :
    ofText document' = .ok (config.reset (sheet.table.deleted sheet'.table)) := by
  obtain ⟨table, isTable, -⟩ := ofText_eq_ok_iff.mp reads
  obtain ⟨isTable', rfl, left⟩ := Sheet.parse?_deletion isDocument isDocument' isTable deletion
  exact ofText_deletion isTable isTable' left reads

example : (ofText "[tasker]\ndebug_mode = true\n").toOption =
      some ⟨⟨true, 10⟩, default, default⟩ ∧
    (ofText "[tasker]\n").toOption = some default := by decide +kernel

/-! ## Files -/

section Files

variable {σ ω : Type} {surroundings : Surroundings Files.access σ ω} {path : String}
  {before : σ × ω}

/-- A configuration that cannot be written touches no file. -/
theorem save_of_not_isStorable (unfit : ¬ config.IsStorable) (path : String) :
    ∃ message, (save config path : Files.Using σ (Outcome Unit)) =
      pure (.error (.config message)) := by
  cases isText : config.text with
  | error cause => exact ⟨_, by rw [save, isText]⟩
  | ok document => exact absurd (exists_text_iff.mp ⟨document, isText⟩) unfit

/-- A configuration is saved when its document is written. -/
theorem save_eq_ok_iff {state : σ} {world' : ω} :
    surroundings.carry (save config path) before = (.ok (), state, world') ↔
      ∃ document world, config.text = .ok document ∧
        surroundings.carry (makeParent path) before = (.ok (), state, world) ∧
        surroundings.answer (Files.Question.write path document) (state, world) =
          ((Except.ok () : Except FileFault Unit), world') := by
  cases isText : config.text with
  | error cause =>
    rw [save, isText]
    exact ⟨nofun, nofun⟩
  | ok document =>
    simp only [save, isText, Surroundings.carry_bind, Except.ok.injEq, exists_and_left,
      exists_eq_left']
    obtain ⟨made, found, world⟩ := surroundings.carry (makeParent path) before
    cases made with
    | error fault => exact ⟨nofun, nofun⟩
    | ok made =>
      obtain ⟨answer, final, wrote⟩ : ∃ answer final,
          surroundings.answer (Files.Question.write path document) (found, world) =
            (answer, final) := ⟨_, _, rfl⟩
      have asks : surroundings.carry (Files.write path document) (found, world) =
          (answer, found, final) := by
        show ((surroundings.answer _ _).1, found, (surroundings.answer _ _).2) = _
        rw [wrote]
      simp only [Surroundings.carry_bind, asks]
      constructor
      · intro saved
        cases answer with
        | error fault => exact nomatch saved
        | ok answer =>
          cases saved
          exact ⟨world, rfl, wrote⟩
      · rintro ⟨_, same, wrote'⟩
        cases same
        cases wrote.symm.trans wrote'
        rfl

/-- **A configuration that is saved is loaded again.** -/
theorem load_of_save (readsBack : surroundings.ReadsBack)
    (saved : (surroundings.carry (save config path) before).1 = .ok ()) :
    (surroundings.carry (load path) (surroundings.carry (save config path) before).2).1 =
      .ok config := by
  obtain ⟨state, world', ends⟩ : ∃ state world',
      surroundings.carry (save config path) before = (.ok (), state, world') :=
    ⟨_, _, Prod.ext saved rfl⟩
  obtain ⟨document, world, isText, -, wrote⟩ := save_eq_ok_iff.mp ends
  have found := readsBack path document state world world' wrote
  have asks : surroundings.carry (Files.text path) (state, world') =
      (Except.ok document, state,
        (surroundings.answer (Files.Question.text path) (state, world')).2) :=
    Prod.ext found rfl
  rw [ends, load, Surroundings.carry_bind, asks]
  simp only [ofText_text isText]
  rfl

/-- **A configuration survives saving and loading.** In surroundings that keep files, what could be
saved is loaded again as it was. The document of a configuration exists, and is read back, if whole
numbers have at most sixty-three bits and the path of the log is a text, as is the case for all that
are read from a document; any other configuration is refused before a file is touched. A document of
what is left of a table when keys are deleted from it is read, and the settings they were about are
as by default, and no others change. When lines and headers are deleted from a document of a sheet,
what is left is such a document. -/
theorem survives_saving (readsBack : surroundings.ReadsBack) :
    (∀ (config : EngineConfig) path before,
      (surroundings.carry (save config path) before).1 = .ok () →
      (surroundings.carry (load path) (surroundings.carry (save config path) before).2).1 =
        .ok config) ∧
    (∀ config : EngineConfig, config.IsStorable →
      ∃ document, config.text = .ok document ∧ ofText document = .ok config) ∧
    (∀ document config, ofText document = .ok config → config.IsStorable) ∧
    (∀ config : EngineConfig, ¬ config.IsStorable → ∀ path, ∃ message,
      (save config path : Files.Using σ (Outcome Unit)) = pure (.error (.config message))) ∧
    (∀ document document' table table' config,
      parse? document = some table → parse? document' = some table' → table.Deletion table' →
      ofText document = .ok config →
      ofText document' = .ok (config.reset (table.deleted table'))) ∧
    (∀ (sheet sheet' : Sheet) document document' config, sheet.Deletion sheet' →
      sheet.IsDocument document → sheet'.IsDocument document' → ofText document = .ok config →
      ofText document' = .ok (config.reset (sheet.table.deleted sheet'.table))) := by
  refine ⟨fun _ _ _ saved => load_of_save readsBack saved, fun config storable => ?_,
    fun _ _ reads => isStorable_of_ofText reads, fun _ unfit => save_of_not_isStorable unfit,
    fun _ _ _ _ _ isTable isTable' deletion reads =>
      ofText_deletion isTable isTable' deletion reads,
    fun _ _ _ _ _ deletion isDocument isDocument' reads =>
      ofText_without isDocument isDocument' deletion reads⟩
  obtain ⟨document, isText⟩ := exists_text_iff.mpr storable
  exact ⟨document, isText, ofText_text isText⟩

/-- Other texts than sheets may not lose a header. The second one here keeps two tables of the same
name apart, since each belongs to a rule of its own. -/
theorem header_between_equal_tables :
    ofText "[[rule]]\n[rule.when]\n[[rule]]\n[rule.when]\n" = .ok default ∧
    ofText "[[rule]]\n[rule.when]\n[rule.when]\n" = .error .toml := by
  have answers :
      (ofText "[[rule]]\n[rule.when]\n[[rule]]\n[rule.when]\n").toOption = some default ∧
      (parse? "[[rule]]\n[rule.when]\n[rule.when]\n").isNone := by decide +kernel
  obtain ⟨whole, rest⟩ := answers
  refine ⟨ofText_of_toOption whole, ?_⟩
  rw [ofText, Option.isNone_iff_eq_none.mp rest]

end Files

/-! ### A configuration with all settings -/

/-- Everything is notified and logged to files, and nodes may be hit three times. -/
def verbose : EngineConfig where
  tasker := ⟨true, 10⟩
  logging := ⟨"debug", some (.ofText "logs"), "screenflow.log", false⟩
  defaults := ⟨20000, 1000, 200, 200, some 3⟩

theorem verbose_isStorable : verbose.IsStorable where
  tasker := ⟨by decide⟩
  logging := ⟨fun path isPath => ⟨"logs", Option.some.inj isPath ▸ RawPath.text?_ofText "logs"⟩⟩
  defaults := ⟨by decide, by decide, by decide, by decide⟩

theorem pieces_sample : Path.pieces "screenflow.toml" = ["screenflow.toml"] := by
  rw [Path.pieces, String.splitOn, if_neg (by decide)]
  -- one step for each of the fifteen characters, and one for the end
  iterate 16 rw [String.splitOnAux]
  decide

/-- It is saved in an empty file tree. -/
theorem saves_verbose : (FileTree.surroundings.carry (save verbose "screenflow.toml")
    ((), FileTree.empty)).1 = .ok () := by
  obtain ⟨document, isText⟩ := exists_text_iff.mpr verbose_isStorable
  have parent : Path.parent? "screenflow.toml" = some "" := by
    rw [Path.parent?, Path.parts, pieces_sample]
    decide +kernel
  have place : FileTree.empty.filePlace "screenflow.toml" = .ok ["screenflow.toml"] := by
    rw [FileTree.filePlace, FileTree.course?, pieces_sample]
    decide +kernel
  have made : makeParent "screenflow.toml" = (pure (.ok ()) : Files.Using Unit _) := by
    simp only [makeParent, parent]
  have wrote : FileTree.surroundings.answer (Files.Question.write "screenflow.toml" document)
      ((), FileTree.empty) = ((Except.ok () : Except FileFault Unit),
        FileTree.empty.put ["screenflow.toml"] (.file document.toUTF8)) := by
    show FileTree.empty.after (FileTree.empty.write _ _) = _
    rw [FileTree.write, place]
    rfl
  have saved := save_eq_ok_iff.mpr ⟨document, FileTree.empty, isText, by rw [made]; rfl, wrote⟩
  exact congrArg Prod.fst saved

/-! ### A document that loses a line -/

/-- The line of a pair. -/
def row (key : String) (value : Scalar) (bare : key.toList ≠ [] ∧ key.toList.all isBareKey = true) :
    Row :=
  ⟨writePair key value, some (key, value.toToml), isLine_pair (isBare_of_all bare) value⟩

/-- The header of a section, with lines. -/
def part (name : String) (bare : name.toList ≠ [] ∧ name.toList.all isBareKey = true)
    (rows : List Row) : Part :=
  ⟨name, _, isLine_header (isBare_of_all bare), rows⟩

/-- The line that has everything notified. -/
def notifying : Row := row "debug_mode" (.bool true) (by decide)

/-- Nodes may be hit three times, and there are these lines about the tasker. -/
def limits (rows : List Row) : Sheet where
  top := []
  parts := [part "tasker" (by decide) rows,
    part "defaults" (by decide) [row "max_hit" (.integer 3) (by decide)]]

/-- Nodes may be hit three times, and everything may be notified. -/
def limited (debugMode : Bool) : EngineConfig :=
  ⟨⟨debugMode, 10⟩, default, ⟨20000, 1000, 200, 200, some 3⟩⟩

theorem limits_deletion : (limits [notifying]).Deletion (limits []) where
  top := .refl []
  parts := .cons ⟨rfl, List.nil_sublist _⟩ (.cons ⟨rfl, .refl _⟩ .nil)

/-- The last line of these documents has no line break. -/
theorem limits_isDocument :
    (limits [notifying]).IsDocument "[tasker]\ndebug_mode = true\n[defaults]\nmax_hit = 3" ∧
    (limits []).IsDocument "[tasker]\n[defaults]\nmax_hit = 3" := by
  have isLast : IsLast "max_hit = 3" (some (.pair ["max_hit"] (.integer 3))) :=
    .of_statement rfl ⟨by decide, by decide, by decide, by decide⟩ rfl
  exact ⟨⟨_, .cut [_, _, _] isLast, .inl (by decide)⟩, ⟨_, .cut [_, _] isLast, .inl (by decide)⟩⟩

theorem ofText_limits :
    ofText "[tasker]\ndebug_mode = true\n[defaults]\nmax_hit = 3" = .ok (limited true) :=
  ofText_of_toOption (by decide +kernel)

theorem reset_limited :
    (limited true).reset ((limits [notifying]).table.deleted (limits []).table) =
      limited false := by
  decide +kernel

/-! ### What comes of both -/

/-- The configuration is loaded again, and the document without the line is read with the setting as
by default and the other one as it was. -/
theorem survives_saving_verbose :
    FileTree.surroundings.ReadsBack ∧
    (FileTree.surroundings.carry (save verbose "screenflow.toml") ((), FileTree.empty)).1 =
      .ok () ∧
    (FileTree.surroundings.carry (load "screenflow.toml")
      (FileTree.surroundings.carry (save verbose "screenflow.toml") ((), FileTree.empty)).2).1 =
        .ok verbose ∧
    ofText "[tasker]\ndebug_mode = true\n[defaults]\nmax_hit = 3" = .ok (limited true) ∧
    ofText "[tasker]\n[defaults]\nmax_hit = 3" = .ok (limited false) := by
  obtain ⟨loads, -, -, -, -, deletes⟩ := survives_saving FileTree.readsBack
  refine ⟨FileTree.readsBack, saves_verbose, loads verbose "screenflow.toml" _ saves_verbose,
    ofText_limits, ?_⟩
  rw [← reset_limited]
  exact deletes _ _ _ _ _ limits_deletion limits_isDocument.1 limits_isDocument.2 ofText_limits

end EngineConfig

end ScreenPilot
