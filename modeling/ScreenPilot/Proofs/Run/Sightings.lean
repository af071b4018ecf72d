import ScreenPilot.Proofs.Run.Returns
import ScreenPilot.Proofs.Run.Targets

/-!
# Where a node was last seen

The box that a node has as a target is that of its last visit. A visit may be one of a miss,
and then the node has no box, although it may have been hit before. So a node keeps the box of
its last hit only until it is visited again (`resolve_node`); `hasty_misses` is a series of
two runs in which it is lost.

What carries the proof is that each name with visits on record has the last one of them
(`Cache.Indexed`). This fails between two steps only, when a run has put a visit on record and
is about to make it the last one of its node (`Filing`). The visit is the last one by its
number, which was new when it was drawn.
-/

set_option autoImplicit false

namespace ScreenPilot

open Activity Engine

/-! ## Visits of a node -/

namespace Cache

/-- A visit of a node is on record. -/
def Visits (cache : Cache) (name : String) (visit : NodeId) : Prop :=
  ∃ detail, cache.node? visit = some detail ∧ detail.name = name

/-- No later visit of a node is on record. -/
structure IsLast (cache : Cache) (name : String) (visit : NodeId) : Prop where
  visits : cache.Visits name visit
  last : ∀ other, cache.Visits name other → other.number ≤ visit.number

/-- The names with visits on record have the last ones, and other names have none. -/
def Indexed (cache : Cache) : Prop :=
  ∀ name visit, cache.latest? name = some visit ↔ cache.IsLast name visit

variable {before after cache : Cache}

theorem Indexed.of_eq (indexed : before.Indexed) (nodes : after.node? = before.node?)
    (latest : after.latest? = before.latest?) : after.Indexed := by
  have same : after.IsLast = before.IsLast := by
    funext name visit
    have visits : after.Visits = before.Visits := by
      funext name visit
      simp only [Visits, nodes]
    refine propext ⟨fun isLast => ?_, fun isLast => ?_⟩
    · exact ⟨visits ▸ isLast.visits, visits ▸ isLast.last⟩
    · exact ⟨visits ▸ isLast.visits, visits ▸ isLast.last⟩
  intro name visit
  rw [latest, same]
  exact indexed name visit

theorem indexed_empty : Indexed .empty := by
  intro name visit
  have unseen : Cache.empty.latest? name = none := by simp [latest?, empty]
  rw [unseen]
  constructor
  · intro seen
    cases seen
  · rintro ⟨⟨detail, found, -⟩, -⟩
    simp [node?, empty] at found

variable {detail : NodeDetail} {last : UInt64}

/-- A visit that is put on record under a fresh number is one visit more. -/
theorem visits_putNode (fresh : Table.Fresh cache.node? detail.id last) {name : String}
    {visit : NodeId} : (cache.putNode detail).Visits name visit ↔
      visit = detail.id ∧ detail.name = name ∨ cache.Visits name visit := by
  unfold Visits
  rw [node?_putNode]
  constructor
  · rintro ⟨found, isFound, named⟩
    split at isFound
    · rename_i same
      cases isFound
      exact .inl ⟨same.symm, named⟩
    · exact .inr ⟨found, isFound, named⟩
  · rintro (⟨rfl, named⟩ | ⟨found, isFound, named⟩)
    · exact ⟨detail, if_pos rfl, named⟩
    · have kept := fresh.keeps detail isFound
      rw [← node?_putNode_eq, node?_putNode] at kept
      exact ⟨found, kept, named⟩

/-- A visit under a fresh number is the last one of its node. -/
theorem Indexed.record (indexed : cache.Indexed)
    (fresh : Table.Fresh cache.node? detail.id last) :
    ((cache.putNode detail).putLatest detail.name detail.id).Indexed := by
  have below {name : String} {visit : NodeId} (visits : cache.Visits name visit) :
      visit.number < detail.id.number := by
    obtain ⟨old, found, -⟩ := visits
    exact fresh.below visit old found
  have visits {name : String} {visit : NodeId} :
      ((cache.putNode detail).putLatest detail.name detail.id).Visits name visit ↔ _ :=
    visits_putNode fresh
  intro name visit
  rw [latest?_putLatest]
  split
  case isTrue named =>
    constructor
    · rintro ⟨⟩
      refine ⟨visits.mpr (.inl ⟨rfl, named⟩), fun other isVisit => ?_⟩
      rcases visits.mp isVisit with ⟨rfl, -⟩ | earlier
      · exact UInt64.le_refl _
      · exact UInt64.le_of_lt (below earlier)
    · rintro ⟨isVisit, isLast⟩
      rcases visits.mp isVisit with ⟨rfl, -⟩ | earlier
      · rfl
      · have later := isLast detail.id (visits.mpr (.inl ⟨rfl, named⟩))
        exact absurd (below earlier) (UInt64.not_lt.mpr later)
  case isFalse other =>
    have same {visit : NodeId} :
        ((cache.putNode detail).putLatest detail.name detail.id).Visits name visit ↔
          cache.Visits name visit :=
      visits.trans (or_iff_right fun isNew => other isNew.2)
    refine (indexed name visit).trans ⟨fun isLast => ?_, fun isLast => ?_⟩
    · exact ⟨same.mpr isLast.visits, fun other isVisit => isLast.last other (same.mp isVisit)⟩
    · exact ⟨same.mp isLast.visits, fun other isVisit => isLast.last other (same.mpr isVisit)⟩

/-! ### Hits -/

/-- A visit of a node on record refers to a hit in a box. -/
def Sights (cache : Cache) (name : String) (visit : NodeId) (box : Rect) : Prop :=
  ∃ detail result, cache.node? visit = some detail ∧ detail.name = name ∧
    cache.reco? detail.reco = some result ∧ result.box = some box

/-- No later visit of a node refers to a hit. -/
structure LastSight (cache : Cache) (name : String) (visit : NodeId) (box : Rect) : Prop where
  sights : cache.Sights name visit box
  last : ∀ other place, cache.Sights name other place → other.number ≤ visit.number

/-- A node was visited again after a visit. -/
def Superseded (cache : Cache) (name : String) (visit : NodeId) : Prop :=
  ∃ later, cache.Visits name later ∧ visit.number < later.number

/-- A node has the box that its last visit refers to. -/
theorem Indexed.boxOf?_eq_some (indexed : cache.Indexed) {name : String} {box : Rect} :
    cache.boxOf? name = some box ↔
      ∃ visit, cache.IsLast name visit ∧ cache.Sights name visit box := by
  simp only [boxOf?, latestNode?, Option.bind_eq_some_iff]
  constructor
  · rintro ⟨detail, ⟨visit, isLatest, found⟩, result, isResult, isBox⟩
    have isLast := (indexed name visit).mp isLatest
    obtain ⟨_, same, named⟩ := isLast.visits
    cases found.symm.trans same
    exact ⟨visit, isLast, detail, result, found, named, isResult, isBox⟩
  · rintro ⟨visit, isLast, detail, result, found, -, isResult, isBox⟩
    exact ⟨detail, ⟨visit, (indexed name visit).mpr isLast, found⟩, result, isResult, isBox⟩

variable {name : String} {visit : NodeId} {box : Rect}

/-- It keeps the box of its last hit until it is visited again. -/
theorem LastSight.keeps (seen : cache.LastSight name visit box) (indexed : cache.Indexed)
    (current : ¬ cache.Superseded name visit) : cache.boxOf? name = some box := by
  obtain ⟨detail, result, found, named, -⟩ := seen.sights
  refine indexed.boxOf?_eq_some.mpr ⟨visit, ⟨⟨detail, found, named⟩, fun other visits => ?_⟩,
    seen.sights⟩
  exact UInt64.not_lt.mp fun later => current ⟨other, visits, later⟩

/-- Then it has none. -/
theorem LastSight.loses (seen : cache.LastSight name visit box) (indexed : cache.Indexed)
    (superseded : cache.Superseded name visit) : cache.boxOf? name = none := by
  refine Option.eq_none_iff_forall_ne_some.mpr fun place found => ?_
  obtain ⟨last, isLast, sights⟩ := indexed.boxOf?_eq_some.mp found
  obtain ⟨later, visits, after⟩ := superseded
  have earlier := UInt64.le_trans (isLast.last later visits) (seen.last last place sights)
  exact UInt64.not_lt.mpr earlier after

end Cache

/-! ## How a run records its visits -/

/-- How far a run has come with the record of a visit. -/
inductive Filing where
  /-- No visit is half recorded; a number may have been drawn for one. -/
  | ready (drawn : Option NodeId)
  /-- A visit is on record, and is about to become the last one of its node. -/
  | filed (detail : NodeDetail)

namespace Filing

/-- The steps of a run of a task, as far as visits are concerned. -/
inductive Go (task : TaskId) : Filing → Engine → Engine → Filing → Prop where
  | aside {drawn : Option NodeId} {before after : Engine} (step : AttemptStep before after) :
      Go task (.ready drawn) before after (.ready drawn)
  | draw {drawn : Option NodeId} (engine : Engine) :
      Go task (.ready drawn) engine { engine with ids := (engine.ids.draw .node).2 }
        (.ready (some (engine.ids.draw .node).1))
  | file (detail : NodeDetail) (engine : Engine) :
      Go task (.ready (some detail.id)) engine
        { engine with cache := engine.cache.putNode detail } (.filed detail)
  | note {detail : NodeDetail} (engine : Engine) :
      Go task (.filed detail) engine
        { engine with cache := engine.cache.putLatest detail.name detail.id } (.ready none)
  | list {drawn : Option NodeId} (visit : NodeId) (engine : Engine) :
      Go task (.ready drawn) engine
        { engine with cache := (engine.cache.pushVisit task visit).2 } (.ready drawn)

/-- No visit is half recorded when a run is over. -/
def IsReady {α : Type} (filing : Filing) (_ : α) : Prop := ∃ drawn, filing = .ready drawn

/-- The names have their last visits, or will have them after the next step. -/
def Indexes : Filing → Engine → Prop
  | .ready drawn, engine =>
    engine.cache.Indexed ∧
      ∀ id, drawn = some id → Table.Fresh engine.cache.node? id engine.ids.node
  | .filed detail, engine => (engine.cache.putLatest detail.name detail.id).Indexed

/-- What a run relies on when it records visits. -/
structure Holds (filing : Filing) (engine : Engine) : Prop where
  within : Table.Within engine.cache.node? engine.ids.node
  indexes : filing.Indexes engine

variable {filing filing' : Filing} {before after : Engine}

theorem attempt_keeps (step : AttemptStep before after) :
    after.cache.node? = before.cache.node? ∧ after.cache.latest? = before.cache.latest? := by
  cases step <;> exact ⟨rfl, rfl⟩

/-- What leaves the visits alone changes nothing here. -/
theorem Holds.keep (holds : filing.Holds before) (upward : before.Upward after)
    (nodes : after.cache.node? = before.cache.node?)
    (latest : after.cache.latest? = before.cache.latest?) : filing.Holds after := by
  refine ⟨nodes ▸ holds.within.raise upward.node, ?_⟩
  cases filing with
  | ready drawn =>
    obtain ⟨indexed, fresh⟩ := holds.indexes
    refine ⟨indexed.of_eq nodes latest, fun id isDrawn => ?_⟩
    exact nodes ▸ (fresh id isDrawn).raise upward.node
  | filed detail =>
    have indexed : (before.cache.putLatest detail.name detail.id).Indexed := holds.indexes
    refine indexed.of_eq nodes ?_
    funext name
    rw [Cache.latest?_putLatest, Cache.latest?_putLatest, latest]

/-- **A step of a run keeps the last visits.** -/
theorem Go.holds {task : TaskId} (go : Go task filing before after filing')
    (holds : filing.Holds before) (upward : before.Upward after) : filing'.Holds after := by
  cases go with
  | aside step =>
    obtain ⟨nodes, latest⟩ := attempt_keeps step
    exact holds.keep upward nodes latest
  | draw =>
    refine ⟨holds.within.raise upward.node, holds.indexes.1, ?_⟩
    rintro _ ⟨⟩
    exact holds.within.fresh upward.node
  | file detail =>
    obtain ⟨indexed, fresh⟩ := holds.indexes
    refine ⟨?_, indexed.record (fresh _ rfl)⟩
    show Table.Within (before.cache.putNode detail).node? before.ids.node
    rw [Cache.node?_putNode_eq]
    exact holds.within.put (fresh _ rfl).drawn detail
  | note => exact ⟨holds.within, holds.indexes, nofun⟩
  | list visit =>
    have agrees := Cache.agrees_changeTask before.cache task fun record => record.withVisit visit
    exact holds.keep upward agrees.node? agrees.latest?

/-- A visit on record becomes the last one of its node in the next step. -/
theorem Go.of_filed {task : TaskId} {detail : NodeDetail}
    (go : Go task (.filed detail) before after filing') :
    after = { before with cache := before.cache.putLatest detail.name detail.id } ∧
      filing' = .ready none := by
  cases go
  exact ⟨rfl, rfl⟩

/-- While a run attempts and acts, no visit is half recorded. -/
theorem aside_goes {α β : Type} {task : TaskId} {drawn : Option NodeId}
    {last : Filing → α → Prop} {first : Acting β} {next : β → Acting α}
    (steps : first.Steps AttemptStep)
    (after : ∀ value, (next value).Obeys (Go task) last (.ready drawn)) :
    (first >>= next).Obeys (Go task) last (.ready drawn) :=
  steps.obeys_bind (fun _ _ => .aside) (fun engine => .aside (.look engine)) after

theorem over_ready {α : Type} {task : TaskId} {drawn : Option NodeId} {value : α} :
    (pure value : Acting α).Obeys (Go task) IsReady (.ready drawn) := ⟨drawn, rfl⟩

end Filing

namespace RunContext

open Filing

variable (context : RunContext) {drawn : Option NodeId}

theorem recordVisit_files {α : Type} (detail : NodeDetail) {next : Unit → Acting α}
    (after : ∀ drawn, (next ()).Obeys (Go context.task) IsReady (.ready drawn)) :
    (context.recordVisit detail >>= next).Obeys (Go context.task) IsReady
      (.ready (some detail.id)) :=
  fun engine => ⟨_, .file detail engine, fun engine => ⟨_, .note engine,
    fun engine => ⟨_, .list detail.id engine, after _⟩⟩⟩

theorem afterMiss_files (walk : Walk) (owner : Node) (last : Option (String × RecoId)) :
    (context.afterMiss walk owner last).Obeys (Go context.task) IsReady (.ready drawn) := by
  unfold afterMiss
  refine .transact_bind fun engine => ⟨_, .draw engine, ?_⟩
  refine context.recordVisit_files _ fun drawn => ?_
  split
  · split <;> exact over_ready
  · exact over_ready

theorem afterHit_files (walk : Walk) (position : Nat)
    (hit : Memory.Eligible context.graph walk.memory) (reco : RecoResult) :
    (context.afterHit walk position hit reco).Obeys (Go context.task) IsReady (.ready drawn) := by
  refine .transact_bind fun engine => ⟨_, .draw engine, ?_⟩
  refine aside_goes (steps_act context _ _ _) fun acted => ?_
  cases acted with
  | unfinished => exact over_ready
  | notStarted => exact context.recordVisit_files _ fun drawn => over_ready
  | done action success =>
    refine context.recordVisit_files _ fun drawn => ?_
    split
    · exact over_ready
    · split
      · exact over_ready
      · split <;> exact over_ready

theorem look_files (walk : Walk) (something : walk.candidates ≠ []) :
    (context.look walk something).Obeys (Go context.task) IsReady (.ready drawn) := by
  unfold look
  split
  · exact over_ready
  · refine aside_goes (steps_scan context _ _ _ _) fun scan => ?_
    cases scan with
    | hit position node reco => exact context.afterHit_files walk position node reco
    | missed last => exact context.afterMiss_files walk _ last
    | exhausted | stopped | unknown | crashed | unfinished => exact over_ready

theorem turn_files (walk : Walk) :
    (context.turn walk).Obeys (Go context.task) IsReady (.ready drawn) := by
  refine aside_goes (steps_reads _) fun isStopped => ?_
  split
  · exact over_ready
  · split
    · exact over_ready
    · exact context.look_files walk _

theorem walkOn_files (walk : Walk) (drawn : Option NodeId) :
    (context.walkOn walk).Obeys (Go context.task) IsReady (.ready drawn) := by
  unfold walkOn
  refine (context.turn_files walk).bind fun turn filing ended => ?_
  obtain ⟨drawn, rfl⟩ := ended
  cases turn with
  | finished memory result => exact over_ready
  | next walk' closer => exact walkOn_files walk' drawn
termination_by walk.left context.graph
decreasing_by assumption

theorem onNode_files (entry : String) {run : Node → Acting RunResult}
    (files : ∀ node, (run node).Obeys (Go context.task) IsReady (.ready drawn)) :
    (context.onNode entry run).Obeys (Go context.task) IsReady (.ready drawn) := by
  unfold onNode
  split
  · exact over_ready
  · refine aside_goes (steps_reads _) fun isStopped => ?_
    split
    · exact over_ready
    · exact files _

theorem recognizeOnce_files (entry : String) :
    (context.recognizeOnce entry).Obeys (Go context.task) IsReady (.ready drawn) := by
  refine context.onNode_files entry fun node => ?_
  refine .transact_bind fun engine => ⟨_, .draw engine, ?_⟩
  refine aside_goes (ofIdle (idle.capture _)) fun reply => ?_
  cases reply with
  | crashed => exact over_ready
  | returned frame =>
    refine aside_goes ?_ fun attempt => context.recordVisit_files _ fun drawn => over_ready
    cases frame with
    | none => exact .pure _
    | some frame => exact .bind (steps_recognize _ _ _) fun _ => .pure _

theorem actOnce_files (entry : String) (box : Rect) :
    (context.actOnce entry box).Obeys (Go context.task) IsReady (.ready drawn) := by
  refine context.onNode_files entry fun node => ?_
  refine aside_goes (.transact .drawReco) fun id => ?_
  refine aside_goes (.modify fun engine => .recordReco engine _) fun _ => ?_
  refine .transact_bind fun engine => ⟨_, .draw engine, ?_⟩
  refine aside_goes (steps_act context _ _ _) fun acted => ?_
  cases acted with
  | unfinished => exact over_ready
  | notStarted => exact context.recordVisit_files _ fun drawn => over_ready
  | done action success => exact context.recordVisit_files _ fun drawn => over_ready

end RunContext

/-! ## Runs one after another -/

namespace Series

open Filing

variable {first series later : Series} {ω : Type}

/-- The next step makes a visit on record the last one of its node. -/
def IsFiling (series : Series) : Prop :=
  ∃ (detail : NodeDetail) (next : Engine → Engine.Acting RunResult), series.rest = .step
    (fun engine => { engine with cache := engine.cache.putLatest detail.name detail.id }) next

/-- The run that is under way has come so far with its visits. -/
def Files (series : Series) : Prop :=
  ∃ task filing, filing.Holds series.engine ∧
    series.rest.Obeys (Filing.Go task) Filing.IsReady filing

theorem Begins.files {run : Engine.Acting RunResult} (begins : Begins run)
    (drawn : Option NodeId) :
    ∃ task, run.Obeys (Filing.Go task) Filing.IsReady (.ready drawn) := by
  cases begins with
  | walk context memory entry =>
    refine ⟨context.task, (context.walkOn_files _ drawn).bind fun _ filing ended => ?_⟩
    obtain ⟨drawn, rfl⟩ := ended
    exact over_ready
  | recognition context entry => exact ⟨context.task, context.recognizeOnce_files entry⟩
  | action context entry box => exact ⟨context.task, context.actOnce_files entry box⟩

/-- **Every step keeps the last visits.** -/
theorem Files.goes (files : series.Files) (goes : series.Goes later) : later.Files := by
  obtain ⟨task, filing, holds, obeys⟩ := files
  obtain ⟨step, upward⟩ := goes
  cases step with
  | begin idle begins =>
    rw [idle] at obeys
    obtain ⟨drawn, rfl⟩ := obeys
    obtain ⟨task, obeys⟩ := begins.files drawn
    exact ⟨task, _, holds, obeys⟩
  | move moves =>
    obtain ⟨filing', go, obeys⟩ := obeys.moves moves
    exact ⟨task, filing', go.holds holds upward, obeys⟩
  | others leaves =>
    exact ⟨task, filing, holds.keep upward leaves.agrees.node? leaves.agrees.latest?, obeys⟩

theorem files_start {result : RunResult} (empty : first.engine.cache = .empty)
    (idle : first.rest = .done result) : first.Files := by
  refine ⟨.invalid, .ready none, ⟨?_, ?_, nofun⟩, ?_⟩
  · rw [empty]
    intro id record found
    simp [Cache.node?, Cache.empty] at found
  · rw [empty]
    exact Cache.indexed_empty
  · rw [idle]
    exact ⟨none, rfl⟩

theorem Files.leads (files : series.Files) (leads : series.Leads later) : later.Files := by
  induction leads with
  | refl => exact files
  | tail _ goes ih => exact ih.goes goes

/-- Unless a visit is half recorded, every name has the last visit of its node. -/
theorem Files.indexed (files : series.Files) (settled : ¬ series.IsFiling) :
    series.engine.cache.Indexed := by
  obtain ⟨task, filing, holds, obeys⟩ := files
  cases filing with
  | ready drawn => exact holds.indexes.1
  | filed detail =>
    refine absurd ?_ settled
    cases isRest : series.rest with
    | done result =>
      rw [isRest] at obeys
      obtain ⟨drawn, same⟩ := obeys
      cases same
    | ask question next =>
      rw [isRest] at obeys
      cases (obeys.1 series.engine).of_filed.2
    | step change next =>
      rw [isRest] at obeys
      have same : change = fun engine =>
          { engine with cache := engine.cache.putLatest detail.name detail.id } := by
        funext engine
        obtain ⟨filing', go, -⟩ := obeys engine
        exact go.of_filed.1
      exact ⟨detail, next, isRest.trans (same ▸ rfl)⟩

/-- **A node has the box of its last hit until it is visited again, and then it has none.** -/
theorem resolve_node {result : RunResult} (empty : first.engine.cache = .empty)
    (idle : first.rest = .done result) (leads : first.Leads series)
    (settled : ¬ series.IsFiling) (surroundings : Surroundings outside Engine ω)
    (keeps : surroundings.KeepsRecords) (world : ω) (hit : RecoResult) {name : String}
    {visit : NodeId} {box : Rect} (seen : series.engine.cache.LastSight name visit box) :
    (¬ series.engine.cache.Superseded name visit →
      (surroundings.carry (Actuator.resolve (.node name) hit) (series.engine, world)).1 =
        some box) ∧
    (series.engine.cache.Superseded name visit →
      (surroundings.carry (Actuator.resolve (.node name) hit) (series.engine, world)).1 =
        none) := by
  have indexed := ((files_start empty idle).leads leads).indexed settled
  rw [(Surroundings.resolve_yields keeps (.node name) hit).value]
  exact ⟨seen.keeps indexed, seen.loses indexed⟩

/-! ### A node that is hit and then missed -/

open RunContext in
/-- The attempt that follows on an engine. -/
def nextReco (engine : Engine) (found : Option Recognition) : RecoResult :=
  recoResult ⟨engine.ids.reco + 1⟩ fleeting found

/-- The visit of this attempt alone. -/
def nextVisit (engine : Engine) (found : Option Recognition) : NodeDetail :=
  ⟨⟨engine.ids.node + 1⟩, "A", (nextReco engine found).id, .invalid, (nextReco engine found).isHit⟩

open RunContext in
/-- A node is recognized once, with a hit or a miss, and this is put on record. -/
theorem hasty_looks {engine : Engine} (running : engine.stopped.contains ⟨1⟩ = false)
    (nodes : engine.ids.node ≤ engine.ids.node + 1) (recos : engine.ids.reco ≤ engine.ids.reco + 1)
    (found : Option Recognition) :
    ∃ final result, (hasty.recognizeOnce "A").Ends ⟨Eq, Engine.Upward⟩ engine result final ∧
      final.stopped = engine.stopped ∧
      final.ids = { engine.ids with node := engine.ids.node + 1, reco := engine.ids.reco + 1 } ∧
      final.cache.node? = Table.put engine.cache.node? (nextVisit engine found).id
        (nextVisit engine found) ∧
      final.cache.reco? = Table.put engine.cache.reco? (nextReco engine found).id
        (nextReco engine found) := by
  have isNode : hasty.graph.find? "A" = some fleeting := by
    rw [hasty, Graph.find?_insert]
    rfl
  have still : ∀ {before after : Engine}, after.ids = before.ids → before.Upward after :=
    Engine.upward_of_eq
  unfold recognizeOnce onNode
  rw [isNode]
  refine ⟨?final, ?result, ?ends, ?rest⟩
  case ends =>
    refine .step rfl (still rfl) ?_
    dsimp only [isStopped, Activity.reads, hasty]
    rw [running]
    refine .step rfl ⟨nodes, UInt64.le_refl _, UInt64.le_refl _⟩ ?_
    refine .ask (Reply.returned (some (default : Frame))) ?_
    refine .step rfl (still rfl) ?_
    refine .step rfl ⟨UInt64.le_refl _, recos, UInt64.le_refl _⟩ ?_
    refine .step rfl (still rfl) ?_
    refine .ask (Reply.returned found) ?_
    refine .step rfl (still rfl) ?_
    refine .step rfl (still rfl) ?_
    refine .step rfl (still rfl) ?_
    refine .step rfl (still rfl) ?_
    refine .step rfl (still rfl) ?_
    exact .done _ _
  case rest =>
    have agrees := Cache.agrees_changeTask
      (((engine.cache.putReco (nextReco engine found)).putNode (nextVisit engine found)).putLatest
        "A" (nextVisit engine found).id) ⟨1⟩
      fun record => record.withVisit (nextVisit engine found).id
    refine ⟨rfl, rfl, agrees.node?.trans ?_, agrees.reco?.trans ?_⟩
    · exact Cache.node?_putNode_eq (engine.cache.putReco (nextReco engine found)) _
    · exact Cache.reco?_putReco engine.cache _

/-- A node is hit, and then it is missed. -/
theorem hasty_misses : ∃ (series : Series) (result : RunResult) (visit : NodeId),
    Leads ⟨.new false, .done result⟩ series ∧ ¬ series.IsFiling ∧
    series.engine.cache.LastSight "A" visit ⟨10, 20, 30, 40⟩ ∧
    series.engine.cache.Superseded "A" visit := by
  let seen : Recognition := ⟨⟨10, 20, 30, 40⟩, .null⟩
  have empty : (Engine.new false).stopped.contains ⟨1⟩ = false := by simp [Engine.new]
  obtain ⟨middle, first, hits, stopped, ids, nodes, recos⟩ :=
    hasty_looks empty (by decide) (by decide) (some seen)
  obtain ⟨final, second, misses, -, -, nodes', recos'⟩ :=
    hasty_looks (stopped ▸ empty) (by rw [ids]; decide) (by rw [ids]; decide) none
  have begins {result : RunResult} {engine : Engine} :
      Goes ⟨engine, .done result⟩ ⟨engine, RunContext.hasty.recognizeOnce "A"⟩ :=
    ⟨.begin rfl (.recognition _ _), Engine.upward_of_eq rfl⟩
  have leads : Leads ⟨.new false, .done first⟩ ⟨final, .done second⟩ :=
    (((Relation.ReflTransGen.single begins).trans (leads_ends hits)).tail begins).trans
      (leads_ends misses)
  have hit : nextVisit (.new false) (some seen) =
      ⟨⟨300000001⟩, "A", ⟨400000001⟩, .invalid, true⟩ := rfl
  have miss : nextVisit middle none = ⟨⟨300000002⟩, "A", ⟨400000002⟩, .invalid, false⟩ := by
    rw [nextVisit, nextReco, ids]
    rfl
  have attempt : (nextReco middle none).id = ⟨400000002⟩ := by
    rw [nextReco, ids]
    rfl
  rw [nodes, hit, miss] at nodes'
  rw [recos, attempt] at recos'
  refine ⟨_, first, ⟨300000001⟩, leads, ?_, ⟨?_, ?_⟩, ?_⟩
  · rintro ⟨_, _, same⟩
    cases same
  · refine ⟨⟨⟨300000001⟩, "A", ⟨400000001⟩, .invalid, true⟩, nextReco (.new false) (some seen), ?_,
      rfl, ?_, rfl⟩
    · rw [nodes']
      rfl
    · rw [recos']
      rfl
  · rintro other place ⟨detail, result, found, -, isResult, isBox⟩
    rw [nodes', Table.put, Table.put] at found
    split at found
    · cases found
      rw [recos', Table.put_self] at isResult
      cases isResult
      cases isBox
    · split at found
      · rename_i same
        rw [← same]
        exact UInt64.le_refl _
      · simp [Engine.new, Cache.node?, Cache.empty] at found
  · refine ⟨⟨300000002⟩, ⟨⟨⟨300000002⟩, "A", ⟨400000002⟩, .invalid, false⟩, ?_, rfl⟩, by decide⟩
    rw [nodes']
    exact Table.put_self _ _ _

open RunContext in
/-- Then it has no box any more. -/
theorem resolve_node_missed : ∃ (series : Series) (visit : NodeId),
    series.engine.cache.LastSight "A" visit ⟨10, 20, 30, 40⟩ ∧
    series.engine.cache.Superseded "A" visit ∧
    (standstill.carry (Actuator.resolve (.node "A") default) (series.engine, ())).1 = none := by
  obtain ⟨series, result, visit, leads, settled, seen, superseded⟩ := hasty_misses
  have keeps : standstill.KeepsRecords := fun before => .refl before.1.cache
  have resolves := resolve_node rfl rfl leads settled standstill keeps () default seen
  exact ⟨series, visit, seen, superseded, resolves.2 superseded⟩

/-- So a node does not keep the box of its last hit, whatever visits of it are recorded
later. -/
theorem box_lost : ¬ ∀ (first series : Series) (result : RunResult) (name : String)
    (visit : NodeId) (box : Rect) (surroundings : Surroundings outside Engine Unit)
    (hit : RecoResult), first.engine.cache = .empty → first.rest = .done result →
    first.Leads series → ¬ series.IsFiling → surroundings.KeepsRecords →
    series.engine.cache.LastSight name visit box →
      (surroundings.carry (Actuator.resolve (.node name) hit) (series.engine, ())).1 =
        some box := by
  intro claim
  obtain ⟨series, result, visit, leads, settled, seen, superseded⟩ := hasty_misses
  have keeps : RunContext.standstill.KeepsRecords := fun before => .refl before.1.cache
  have kept := claim ⟨.new false, .done result⟩ series result "A" visit ⟨10, 20, 30, 40⟩
    RunContext.standstill default rfl rfl leads settled keeps seen
  have start : Files ⟨.new false, .done result⟩ := files_start rfl rfl
  have indexed := (start.leads leads).indexed settled
  rw [(Surroundings.resolve_yields keeps (.node "A") default).value] at kept
  cases (seen.loses indexed superseded).symm.trans kept

end Series

end ScreenPilot
