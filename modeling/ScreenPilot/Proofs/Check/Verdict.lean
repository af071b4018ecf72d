import ScreenPilot.Check.Report
import ScreenPilot.Proofs.Activity.Among
import ScreenPilot.Proofs.Graph.Closed

/-!
# The verdict of the checker

Once a graph is loaded, the checker ends with code zero exactly if the graph is
closed and every entry it was given is a node of it (`run_code_zero_iff`). The
graph is the one the checker leaves in its resource, whatever the files say.
-/

set_option autoImplicit false

namespace ScreenPilot

open Activity

/-! ## Files leave the state alone -/

section Files

variable {σ : Type} {kind : σ → σ → Prop}

theorem Files.steps_ask (question : Files.Question) :
    (.ask question .done : Files.Using σ (Files.Answer question)).Steps kind :=
  fun _ => trivial

namespace Graph

theorem steps_loadFile (defaults : NodeDefaults) (path : String) :
    (loadFile defaults path : Files.Using σ _).Steps kind := by
  refine .bind (Files.steps_ask (.text path)) fun reply => ?_
  split <;> exact .pure _

theorem steps_loadFiles (defaults : NodeDefaults) (graph : Graph) (paths : List String) :
    (loadFiles defaults graph paths : Files.Using σ _).Steps kind := by
  induction paths generalizing graph with
  | nil => exact .pure _
  | cons path paths ih =>
    refine .bind (steps_loadFile defaults path) fun loaded => ?_
    split
    · exact .pure _
    · exact ih _

theorem steps_load (defaults : NodeDefaults) (path : String) :
    (load defaults path : Files.Using σ _).Steps kind := by
  refine .bind (Files.steps_ask (.isDirectory path)) fun isDirectory => ?_
  split
  · refine .bind (Files.steps_ask (.names path)) fun names => ?_
    split
    · exact .pure _
    · exact steps_loadFiles _ _ _
  · exact steps_loadFile _ _

end Graph

namespace EngineConfig

theorem steps_load (path : String) : (load path : Files.Using σ _).Steps kind := by
  refine .bind (Files.steps_ask (.text path)) fun reply => ?_
  split
  · exact .pure _
  · split <;> exact .pure _

theorem steps_loadOrDefault (path : String) :
    (loadOrDefault path : Files.Using σ _).Steps kind := by
  refine .bind (Files.steps_ask (.isPresent path)) fun isPresent => ?_
  split
  · refine .bind (steps_load path) fun loaded => ?_
    split <;> exact .pure _
  · exact .pure _

end EngineConfig

namespace Check

theorem steps_makeLogFile (path : String) : (makeLogFile path : Files.Using σ _).Steps kind := by
  refine .bind (Files.steps_ask (.append path "")) fun reply => ?_
  split
  · exact .pure _
  · split
    · exact .pure _
    · refine .bind (Files.steps_ask (.makeDirectories _)) fun made => ?_
      split
      · exact .pure _
      · exact .bind (Files.steps_ask (.append path "")) fun _ => .pure _

theorem steps_prepareLog (settings : LogSettings) (day : CalendarDay) :
    (prepareLog settings day : Files.Using σ _).Steps kind := by
  unfold prepareLog
  split
  · exact .pure _
  · refine .bind (Files.steps_ask (.makeDirectories _)) fun made => ?_
    split
    · exact .pure _
    · refine .bind (steps_makeLogFile _) fun isMade => ?_
      split <;> exact .pure _

end Check

end Files

/-! ## Loading -/

namespace Resource

variable {resource : Resource}

theorem steps_loadEach (merged : Graph) (position : Nat) (paths : List String) :
    (loadEach merged position paths).Steps Eq := by
  induction paths generalizing merged position with
  | nil => exact .pure _
  | cons path paths ih =>
    refine .bind (fun _ => trivial) fun _ => ?_
    refine .bind (.reads fun _ => rfl) fun stopping => ?_
    split
    · exact .pure _
    · refine .bind (.reads fun _ => rfl) fun defaults => ?_
      refine .bind (.widen (Graph.steps_load defaults path)) fun loaded => ?_
      split
      · exact .pure _
      · exact ih _ _

/-- A load that fails does not count as one. -/
theorem loadPaths_failed (paths : List String) (fresh : resource.loaded = false) :
    Ensures .alone (loadPaths paths) resource fun outcome final =>
      outcome ≠ .ok () → final.loaded = false := by
  refine ensures_bind.mpr (ensures_modify.mpr ?_)
  rintro _ rfl -
  refine ensures_bind.mpr (ensures_reads.mpr ?_)
  rintro _ rfl -
  refine ensures_bind.mpr (((steps_loadEach _ 0 paths).unchanged _).imp ?_)
  rintro outcome _ rfl
  split
  · exact ensures_pure.mpr fun _ => fresh
  · exact .after fun _ _ => ensures_pure.mpr fun failed => absurd rfl failed

end Resource

namespace Check

/-! ## Reports -/

/-- Nothing stands in the way of a run exactly if the graph is closed and has
all entries. -/
theorem isGood_iff {graph : Graph} {entries : List String} :
    (Report.of graph entries).isGood = true ↔
      graph.Closed ∧ ∀ entry ∈ entries, graph.contains entry = true := by
  have missing : entries.countP (fun entry => ¬ graph.contains entry) = 0 ↔
      ∀ entry ∈ entries, graph.contains entry = true := by
    simp only [List.countP_eq_zero, Bool.not_eq_true, decide_eq_true_eq, Bool.not_eq_false]
  rw [Graph.closed_iff_none_fatal, ← missing, ← Nat.add_eq_zero_iff]
  exact decide_eq_true_iff

theorem code_ofReport {report : Report} : (Ending.ofReport report).code = 0 ↔ report.isGood := by
  unfold Ending.ofReport
  split
  · exact iff_of_true rfl ‹_›
  · exact iff_of_false (by show ¬ (1 : UInt32) = 0; decide) ‹_›

/-! ## The program -/

/-- A report is on the graph that is left, and without a report none is loaded. -/
def Reported (options : Options) (outcome : Outcome Report) (final : Resource) : Prop :=
  match outcome with
  | .ok report => report = .of final.graph options.entries
  | .error _ => final.loaded = false

theorem checkLoaded_reported (defaults : NodeDefaults) (options : Options)
    (resource : Resource) :
    Ensures .alone (checkLoaded defaults options) resource (Reported options) := by
  refine ensures_bind.mpr (ensures_modify.mpr ?_)
  rintro _ rfl -
  refine ensures_bind.mpr ((Resource.loadPaths_failed options.pipelines rfl).imp ?_)
  intro outcome final failed
  split
  · exact ensures_pure.mpr (failed nofun)
  · refine ensures_bind.mpr (ensures_reads.mpr ?_)
    rintro _ rfl -
    exact ensures_pure.mpr rfl

theorem steps_configuration (named usual : Option String) :
    (configuration named usual).Steps Eq := by
  unfold configuration
  split
  · exact .widen (EngineConfig.steps_load _)
  · exact .bind (.widen (EngineConfig.steps_loadOrDefault _)) fun _ => .pure _
  · exact .pure _

theorem check_reported (usual : Option String) (day : CalendarDay) (options : Options)
    (resource : Resource) (fresh : resource.loaded = false) :
    Ensures .alone (check usual day options) resource fun reply final =>
      match reply with
      | .returned outcome => Reported options outcome final
      | .crashed => final.loaded = false := by
  refine ensures_bind.mpr (((steps_configuration options.config usual).unchanged _).imp ?_)
  rintro config _ rfl
  split
  · exact ensures_pure.mpr fresh
  · refine ensures_bind.mpr ((Steps.unchanged (.widen (steps_prepareLog _ day)) _).imp ?_)
    rintro prepared _ rfl
    split
    · exact ensures_pure.mpr fresh
    · exact ensures_pure.mpr fresh
    · refine ensures_bind.mpr ((checkLoaded_reported _ options _).imp fun outcome final holds => ?_)
      exact ensures_pure.mpr holds

/-- **With a graph loaded, the checker ends with code zero exactly if the graph is
closed and has all entries.** -/
theorem run_code_zero_iff {usual : Option String} {day : CalendarDay} {arguments : List String}
    {options : Options} {ending : Ending} {final : Resource}
    (command : Command.of arguments = .check options)
    (ends : (run usual day arguments).Ends .alone default ending final)
    (loaded : final.loaded = true) :
    ending.code = 0 ↔
      final.graph.Closed ∧ ∀ entry ∈ options.entries, final.graph.contains entry = true := by
  unfold run at ends
  rw [command] at ends
  obtain ⟨reply, middle, checked, rest⟩ := ends_bind.mp ends
  have reported := check_reported usual day options default rfl _ _ checked
  cases reply with
  | crashed =>
    cases rest
    rw [loaded] at reported
    cases reported
  | returned outcome =>
    cases outcome with
    | error error =>
      cases rest
      rw [show final.loaded = false from reported] at loaded
      cases loaded
    | ok report =>
      cases rest
      rw [code_ofReport, show report = .of final.graph options.entries from reported]
      exact isGood_iff

end Check

end ScreenPilot
