import Mathlib.Logic.Relation
import ScreenPilot.Proofs.Run.Accord
import ScreenPilot.Proofs.Run.Course
import ScreenPilot.Proofs.Run.Record
import ScreenPilot.Proofs.Runner.Order

/-!
# References between records

A task lists its visits, a visit refers to an attempt and to an action, and a name has a last
visit. These references resolve at every moment (`Cache.Sound`), though each record is
written in a step of its own and others may look between any two steps: a run refers only to
what it has in hand (`Course.Go`), and what it has in hand is on record (`Course.Holds`).

No record is changed, because its number is new when it is written: numbers only go up, and
only the run that has drawn one writes a record under it. Others may draw numbers as well,
post tasks and change where these stand, as long as they leave the other tables alone
(`Engine.LeavesRecords`).
-/

set_option autoImplicit false

namespace ScreenPilot

/-! ## Tables -/

/-- The records of a table by their numbers. -/
abbrev Table (kind : IdKind) (β : Type) : Type := Id kind → Option β

namespace Table

variable {kind : IdKind} {β : Type} {table : Table kind β} {id : Id kind} {last : UInt64}

/-- A record more. -/
def put (table : Table kind β) (id : Id kind) (record : β) : Table kind β :=
  fun other => if id = other then some record else table other

/-- No record stands above a number. -/
def Within (table : Table kind β) (last : UInt64) : Prop :=
  ∀ id record, table id = some record → id.number ≤ last

/-- A number has been drawn, and all records stand below it. -/
structure Fresh (table : Table kind β) (id : Id kind) (last : UInt64) : Prop where
  below : ∀ other record, table other = some record → other.number < id.number
  drawn : id.number ≤ last

/-- A number that is drawn is fresh. -/
theorem Within.fresh (within : table.Within last) (upward : last ≤ last + 1) :
    table.Fresh ⟨last + 1⟩ (last + 1) where
  below other record found :=
    UInt64.lt_of_le_of_lt (within other record found) (Runner.lt_next upward)
  drawn := UInt64.le_refl _

theorem Within.raise (within : table.Within last) {last' : UInt64} (upward : last ≤ last') :
    table.Within last' :=
  fun id record found => UInt64.le_trans (within id record found) upward

theorem Fresh.raise (fresh : table.Fresh id last) {last' : UInt64} (upward : last ≤ last') :
    table.Fresh id last' :=
  ⟨fresh.below, UInt64.le_trans fresh.drawn upward⟩

theorem put_self (table : Table kind β) (id : Id kind) (record : β) :
    table.put id record id = some record := if_pos rfl

/-- A record under a fresh number takes the place of no other. -/
theorem Fresh.keeps (fresh : table.Fresh id last) (record : β) {other : Id kind} {old : β}
    (found : table other = some old) : table.put id record other = some old := by
  refine (if_neg ?_).trans found
  rintro rfl
  exact UInt64.lt_irrefl _ (fresh.below id old found)

/-- Every record stands under its own number when one more does. -/
theorem own_put {number : β → Id kind}
    (own : ∀ id record, table id = some record → number record = id)
    {record : β} (same : number record = id) (other : Id kind) (found : β)
    (isFound : table.put id record other = some found) : number found = other := by
  unfold put at isFound
  split at isFound
  · rename_i isOther
    cases isFound
    exact same.trans isOther
  · exact own other found isFound

theorem Within.put (within : table.Within last) (drawn : id.number ≤ last) (record : β) :
    (table.put id record).Within last := by
  intro other found isFound
  unfold Table.put at isFound
  split at isFound
  · rename_i same
    exact same ▸ drawn
  · exact within other found isFound

end Table

/-! ## The tables of the cache -/

namespace Cache

theorem reco?_putReco (cache : Cache) (result : RecoResult) :
    (cache.putReco result).reco? = Table.put cache.reco? result.id result := by
  funext id
  simp only [reco?, putReco, Table.put, Std.ExtTreeMap.getElem?_insert, Std.compare_eq_iff_eq]

theorem action?_putAction (cache : Cache) (result : ActionResult) :
    (cache.putAction result).action? = Table.put cache.action? result.id result := by
  funext id
  simp only [action?, putAction, Table.put, Std.ExtTreeMap.getElem?_insert, Std.compare_eq_iff_eq]

theorem node?_putNode_eq (cache : Cache) (detail : NodeDetail) :
    (cache.putNode detail).node? = Table.put cache.node? detail.id detail :=
  funext fun id => node?_putNode cache detail id

theorem latest?_putLatest (cache : Cache) (name other : String) (visit : NodeId) :
    (cache.putLatest name visit).latest? other =
      if name = other then some visit else cache.latest? other := by
  simp only [latest?, putLatest, Std.ExtTreeMap.getElem?_insert, Std.compare_eq_iff_eq]

/-! ## What holds at every moment -/

/-- No record of an attempt, an action or a visit is changed or dropped. -/
structure Persists (before after : Cache) : Prop where
  recos : ∀ id result, before.reco? id = some result → after.reco? id = some result
  actions : ∀ id result, before.action? id = some result → after.action? id = some result
  nodes : ∀ id detail, before.node? id = some detail → after.node? id = some detail

/-- What a visit refers to is on record and fits it. -/
structure Backs (cache : Cache) (detail : NodeDetail) : Prop where
  reco : detail.reco.isValid = true →
    ∃ result, cache.reco? detail.reco = some result ∧ result.name = detail.name
  action : detail.action.isValid = true → ∃ result, cache.action? detail.action = some result ∧
    result.name = detail.name ∧ result.success = detail.completed
  completed : detail.completed = true →
    ∃ result, cache.reco? detail.reco = some result ∧ result.isHit = true

/-- Visits are on record, and in the order of their numbers. -/
structure Lists (cache : Cache) (visits : List NodeId) : Prop where
  known : ∀ visit ∈ visits, ∃ detail, cache.node? visit = some detail
  ascending : visits.Pairwise (·.number < ·.number)

/-- Every reference resolves, and every record stands under its own number. -/
structure Sound (cache : Cache) : Prop where
  recos : ∀ id result, cache.reco? id = some result → result.id = id
  actions : ∀ id result, cache.action? id = some result → result.id = id
  nodes : ∀ id detail, cache.node? id = some detail → detail.id = id ∧ cache.Backs detail
  latest : ∀ name id, cache.latest? name = some id →
    ∃ detail, cache.node? id = some detail ∧ detail.name = name
  visits : ∀ task detail, cache.task? task = some detail → cache.Lists detail.visits

variable {before after cache : Cache}

theorem Persists.refl (cache : Cache) : cache.Persists cache :=
  ⟨fun _ _ => id, fun _ _ => id, fun _ _ => id⟩

theorem Persists.of_eq (recos : after.reco? = before.reco?)
    (actions : after.action? = before.action?) (nodes : after.node? = before.node?) :
    before.Persists after := by
  refine ⟨fun _ _ found => ?_, fun _ _ found => ?_, fun _ _ found => ?_⟩
  · rwa [recos]
  · rwa [actions]
  · rwa [nodes]

theorem Persists.trans {later : Cache} (persists : before.Persists after)
    (onward : after.Persists later) : before.Persists later where
  recos id result found := onward.recos id result (persists.recos id result found)
  actions id result found := onward.actions id result (persists.actions id result found)
  nodes id detail found := onward.nodes id detail (persists.nodes id detail found)

theorem Backs.persists {detail : NodeDetail} (backs : before.Backs detail)
    (persists : before.Persists after) : after.Backs detail where
  reco valid := by
    obtain ⟨result, found, named⟩ := backs.reco valid
    exact ⟨result, persists.recos _ _ found, named⟩
  action valid := by
    obtain ⟨result, found, fits⟩ := backs.action valid
    exact ⟨result, persists.actions _ _ found, fits⟩
  completed completes := by
    obtain ⟨result, found, isHit⟩ := backs.completed completes
    exact ⟨result, persists.recos _ _ found, isHit⟩

theorem Lists.persists {visits : List NodeId} (lists : before.Lists visits)
    (persists : before.Persists after) : after.Lists visits where
  known visit member := by
    obtain ⟨detail, found⟩ := lists.known visit member
    exact ⟨detail, persists.nodes _ _ found⟩
  ascending := lists.ascending

theorem sound_empty : Sound .empty where
  recos := by simp [reco?, empty]
  actions := by simp [action?, empty]
  nodes := by simp [node?, empty]
  latest := by simp [latest?, empty]
  visits := by simp [task?, empty]

/-! ### Records more -/

/-- An attempt more, under a number that is fresh. -/
theorem Sound.putReco {result : RecoResult} (sound : cache.Sound)
    (persists : cache.Persists (cache.putReco result)) : (cache.putReco result).Sound where
  recos := by
    rw [reco?_putReco]
    exact Table.own_put sound.recos rfl
  actions := sound.actions
  nodes id detail found := (sound.nodes id detail found).imp_right (·.persists persists)
  latest := sound.latest
  visits task record found := (sound.visits task record found).persists persists

theorem Sound.putAction {result : ActionResult} (sound : cache.Sound)
    (persists : cache.Persists (cache.putAction result)) : (cache.putAction result).Sound where
  recos := sound.recos
  actions := by
    rw [action?_putAction]
    exact Table.own_put sound.actions rfl
  nodes id detail found := (sound.nodes id detail found).imp_right (·.persists persists)
  latest := sound.latest
  visits task record found := (sound.visits task record found).persists persists

/-- A visit more, whose references are on record. -/
theorem Sound.putNode {detail : NodeDetail} (sound : cache.Sound)
    (persists : cache.Persists (cache.putNode detail)) (backs : cache.Backs detail) :
    (cache.putNode detail).Sound where
  recos := sound.recos
  actions := sound.actions
  nodes id found isFound := by
    rw [node?_putNode] at isFound
    split at isFound
    · rename_i same
      cases isFound
      exact ⟨same, backs.persists persists⟩
    · exact (sound.nodes id found isFound).imp_right (·.persists persists)
  latest name id isLast := by
    obtain ⟨last, found, named⟩ := sound.latest name id isLast
    exact ⟨last, persists.nodes _ _ found, named⟩
  visits task record found := (sound.visits task record found).persists persists

theorem Sound.putLatest {detail : NodeDetail} (sound : cache.Sound)
    (known : cache.node? detail.id = some detail) :
    (cache.putLatest detail.name detail.id).Sound where
  recos := sound.recos
  actions := sound.actions
  nodes id found isFound :=
    (sound.nodes id found isFound).imp_right (·.persists (.of_eq rfl rfl rfl))
  latest name id isLast := by
    rw [latest?_putLatest] at isLast
    split at isLast
    · rename_i same
      cases isLast
      exact ⟨detail, known, same⟩
    · exact sound.latest name id isLast
  visits task record found := (sound.visits task record found).persists (.of_eq rfl rfl rfl)

/-- All visits that tasks list stand below a number. -/
def Precedes (cache : Cache) (id : NodeId) : Prop :=
  ∀ task detail, cache.task? task = some detail → ∀ visit ∈ detail.visits,
    visit.number < id.number

/-- The visits that tasks list are on record, so they stand below a fresh number. -/
theorem Sound.precedes {id : NodeId} {last : UInt64} (sound : cache.Sound)
    (fresh : Table.Fresh cache.node? id last) : cache.Precedes id := by
  intro task detail found visit member
  obtain ⟨node, known⟩ := (sound.visits task detail found).known visit member
  exact fresh.below visit node known

/-- The tables that hold no tasks are the same. -/
structure Agrees (before after : Cache) : Prop where
  recos : after.recos = before.recos
  actions : after.actions = before.actions
  nodes : after.nodes = before.nodes
  latest : after.latest = before.latest

theorem Agrees.reco? (agrees : before.Agrees after) : after.reco? = before.reco? :=
  funext fun id => congrArg (·[id]?) agrees.recos

theorem Agrees.action? (agrees : before.Agrees after) : after.action? = before.action? :=
  funext fun id => congrArg (·[id]?) agrees.actions

theorem Agrees.node? (agrees : before.Agrees after) : after.node? = before.node? :=
  funext fun id => congrArg (·[id]?) agrees.nodes

theorem Agrees.latest? (agrees : before.Agrees after) : after.latest? = before.latest? :=
  funext fun name => congrArg (·[name]?) agrees.latest

theorem Agrees.persists (agrees : before.Agrees after) : before.Persists after :=
  .of_eq agrees.reco? agrees.action? agrees.node?

/-- Where only tasks change, references stay sound if the tasks list visits soundly. -/
theorem Sound.agrees (sound : before.Sound) (agrees : before.Agrees after)
    (visits : ∀ task detail, after.task? task = some detail → before.Lists detail.visits) :
    after.Sound where
  recos := by
    rw [agrees.reco?]
    exact sound.recos
  actions := by
    rw [agrees.action?]
    exact sound.actions
  nodes := by
    rw [agrees.node?]
    exact fun id detail found =>
      (sound.nodes id detail found).imp_right (·.persists agrees.persists)
  latest := by
    rw [agrees.latest?, agrees.node?]
    exact sound.latest
  visits task detail found := (visits task detail found).persists agrees.persists

/-- A change of the record of one task leaves the other tables alone. -/
theorem agrees_changeTask (cache : Cache) (task : TaskId) (change : TaskDetail → TaskDetail) :
    cache.Agrees (cache.changeTask task change).2 := by
  unfold changeTask
  split <;> exact ⟨rfl, rfl, rfl, rfl⟩

/-- A task lists a visit more, if it is on record. -/
theorem visits_of_pushVisit {task other : TaskId} {visit : NodeId} {detail : TaskDetail}
    (found : (cache.pushVisit task visit).2.task? other = some detail) :
    ∃ old, cache.task? other = some old ∧
      (detail.visits = old.visits ∨ detail.visits = old.visits ++ [visit]) := by
  rw [pushVisit, task?_changeTask] at found
  split at found
  · rename_i same
    obtain ⟨old, isOld, rfl⟩ := Option.map_eq_some_iff.mp found
    exact ⟨old, same ▸ isOld, .inr rfl⟩
  · exact ⟨detail, found, .inl rfl⟩

/-- A task lists a visit more, which is on record and comes after all others. -/
theorem Sound.pushVisit {visit : NodeId} {detail : NodeDetail} (sound : cache.Sound)
    (known : cache.node? visit = some detail) (precedes : cache.Precedes visit) (task : TaskId) :
    (cache.pushVisit task visit).2.Sound := by
  refine sound.agrees (agrees_changeTask cache task _) fun other record found => ?_
  obtain ⟨old, isOld, same | more⟩ := visits_of_pushVisit found
  · rw [same]
    exact sound.visits other old isOld
  · rw [more]
    have lists := sound.visits other old isOld
    constructor
    · intro one member
      rcases List.mem_append.mp member with member | last
      · exact lists.known one member
      · rw [List.mem_singleton.mp last]
        exact ⟨detail, known⟩
    · refine List.pairwise_append.mpr ⟨lists.ascending, List.pairwise_singleton _ _, ?_⟩
      intro one member last isLast
      rw [List.mem_singleton.mp isLast]
      exact precedes other old isOld one member

end Cache

/-! ## The run and the others -/

namespace Engine

/-- No counter of a run starts again. -/
structure Upward (before after : Engine) : Prop where
  node : before.ids.node ≤ after.ids.node
  reco : before.ids.reco ≤ after.ids.reco
  action : before.ids.action ≤ after.ids.action

theorem upward_of_eq {before after : Engine} (same : after.ids = before.ids) :
    before.Upward after := by
  constructor
  · exact same ▸ UInt64.le_refl _
  · exact same ▸ UInt64.le_refl _
  · exact same ▸ UInt64.le_refl _

/-- Others leave the records of attempts, actions and visits alone, and a task lists no
visits but those that it listed. -/
structure LeavesRecords (before after : Engine) : Prop where
  agrees : before.cache.Agrees after.cache
  visits : ∀ task detail, after.cache.task? task = some detail →
    detail.visits = [] ∨
      ∃ old, before.cache.task? task = some old ∧ detail.visits = old.visits

/-- References resolve, and all records stand within what has been drawn. -/
structure Sound (engine : Engine) : Prop where
  cache : engine.cache.Sound
  recos : Table.Within engine.cache.reco? engine.ids.reco
  actions : Table.Within engine.cache.action? engine.ids.action
  nodes : Table.Within engine.cache.node? engine.ids.node

theorem sound_of_empty {engine : Engine} (empty : engine.cache = .empty) : engine.Sound := by
  refine ⟨?_, ?_, ?_, ?_⟩
  · rw [empty]
    exact Cache.sound_empty
  · rw [empty]
    intro id result found
    simp [Cache.reco?, Cache.empty] at found
  · rw [empty]
    intro id result found
    simp [Cache.action?, Cache.empty] at found
  · rw [empty]
    intro id detail found
    simp [Cache.node?, Cache.empty] at found

variable {before after : Engine}

/-- A step that leaves the cache alone. -/
theorem Sound.raise (sound : before.Sound) (same : after.cache = before.cache)
    (upward : before.Upward after) : after.Sound where
  cache := same ▸ sound.cache
  recos := same ▸ sound.recos.raise upward.reco
  actions := same ▸ sound.actions.raise upward.action
  nodes := same ▸ sound.nodes.raise upward.node

theorem Sound.among (sound : before.Sound) (leaves : before.LeavesRecords after)
    (upward : before.Upward after) : after.Sound where
  cache := by
    refine sound.cache.agrees leaves.agrees fun task detail found => ?_
    rcases leaves.visits task detail found with none | ⟨old, isOld, same⟩
    · rw [none]
      exact ⟨nofun, .nil⟩
    · rw [same]
      exact sound.cache.visits task old isOld
  recos := by
    rw [leaves.agrees.reco?]
    exact sound.recos.raise upward.reco
  actions := by
    rw [leaves.agrees.action?]
    exact sound.actions.raise upward.action
  nodes := by
    rw [leaves.agrees.node?]
    exact sound.nodes.raise upward.node

end Engine

/-- What is in hand is on record, and the number of a visit to come is fresh. -/
structure Hand.Holds (hand : Hand) (engine : Engine) : Prop where
  recos : ∀ result ∈ hand.recos, engine.cache.reco? result.id = some result
  actions : ∀ result ∈ hand.actions, engine.cache.action? result.id = some result
  visit : ∀ id, hand.visit = some id → Table.Fresh engine.cache.node? id engine.ids.node

/-- The number of an attempt or action to come is fresh, and a visit that is on record and
not yet listed comes after all that are. -/
def RunPhase.Holds (engine : Engine) : RunPhase → Prop
  | .calm | .recognized _ _ | .acted _ _ => True
  | .attempt id => Table.Fresh engine.cache.reco? id engine.ids.reco
  | .recognizing event => Table.Fresh engine.cache.reco? event.reco engine.ids.reco
  | .action id => Table.Fresh engine.cache.action? id engine.ids.action
  | .acting event => Table.Fresh engine.cache.action? event.action engine.ids.action
  | .filed detail | .noted detail =>
    engine.cache.node? detail.id = some detail ∧ engine.cache.Precedes detail.id

/-- What a run relies on holds. -/
structure Course.Holds (course : Course) (engine : Engine) : Prop where
  hand : course.hand.Holds engine
  phase : course.phase.Holds engine

section Others

variable {before after : Engine}

theorem Engine.leaves_of_eq (same : after.cache = before.cache) : before.LeavesRecords after where
  agrees := by
    rw [same]
    exact ⟨rfl, rfl, rfl, rfl⟩
  visits task detail found := .inr ⟨detail, same ▸ found, rfl⟩

/-- What is in hand stays on record where no visit is recorded. -/
theorem Hand.Holds.keep {hand : Hand} (holds : hand.Holds before)
    (persists : before.cache.Persists after.cache)
    (nodes : after.cache.node? = before.cache.node?) (upward : before.Upward after) :
    hand.Holds after where
  recos result member := persists.recos _ _ (holds.recos result member)
  actions result member := persists.actions _ _ (holds.actions result member)
  visit id drawn := nodes ▸ (holds.visit id drawn).raise upward.node

/-- **Others leave alone what a run relies on.** -/
theorem Course.Holds.among {course : Course} (holds : course.Holds before)
    (leaves : before.LeavesRecords after) (upward : before.Upward after) : course.Holds after where
  hand := holds.hand.keep leaves.agrees.persists leaves.agrees.node? upward
  phase := by
    have phase := holds.phase
    generalize course.phase = stage at phase ⊢
    have precedes : ∀ id, before.cache.Precedes id → after.cache.Precedes id := by
      intro id precedes task detail found visit member
      rcases leaves.visits task detail found with none | ⟨old, isOld, same⟩
      · rw [none] at member
        cases member
      · exact precedes task old isOld visit (same ▸ member)
    cases stage with
    | calm | recognized | acted => trivial
    | attempt | recognizing =>
      show Table.Fresh after.cache.reco? _ _
      rw [leaves.agrees.reco?]
      exact Table.Fresh.raise phase upward.reco
    | action | acting =>
      show Table.Fresh after.cache.action? _ _
      rw [leaves.agrees.action?]
      exact Table.Fresh.raise phase upward.action
    | filed detail | noted detail =>
      exact ⟨leaves.agrees.persists.nodes _ _ phase.1, precedes _ phase.2⟩

end Others

/-! ## One step -/

/-- What a step of a run leaves behind. -/
structure Course.Leaves (before after : Engine) (course : Course) : Prop where
  sound : after.Sound
  holds : course.Holds after
  persists : before.cache.Persists after.cache

section Step

variable {engine : Engine} {hand : Hand}

/-- An attempt that is put on record under a fresh number is in hand. -/
theorem Course.Leaves.reco {result : RecoResult} (sound : engine.Sound) (holds : hand.Holds engine)
    (fresh : Table.Fresh engine.cache.reco? result.id engine.ids.reco)
    {phase : RunPhase} (rests : ∀ engine, phase.Holds engine) :
    Course.Leaves engine { engine with cache := engine.cache.putReco result }
      ⟨{ hand with recos := result :: hand.recos }, phase⟩ := by
  have persists : engine.cache.Persists (engine.cache.putReco result) := by
    refine ⟨fun id old found => ?_, fun _ _ => id, fun _ _ => id⟩
    rw [Cache.reco?_putReco]
    exact fresh.keeps result found
  refine ⟨⟨sound.cache.putReco persists, ?_, sound.actions, sound.nodes⟩, ⟨⟨?_, ?_, ?_⟩, rests _⟩,
    persists⟩
  · show Table.Within (engine.cache.putReco result).reco? engine.ids.reco
    rw [Cache.reco?_putReco]
    exact sound.recos.put fresh.drawn result
  · intro one member
    rcases List.mem_cons.mp member with rfl | member
    · show (engine.cache.putReco one).reco? one.id = some one
      rw [Cache.reco?_putReco]
      exact Table.put_self _ _ _
    · exact persists.recos _ _ (holds.recos one member)
  · exact holds.actions
  · exact holds.visit

/-- So is an action. -/
theorem Course.Leaves.action {result : ActionResult} (sound : engine.Sound)
    (holds : hand.Holds engine)
    (fresh : Table.Fresh engine.cache.action? result.id engine.ids.action)
    {phase : RunPhase} (rests : ∀ engine, phase.Holds engine) :
    Course.Leaves engine { engine with cache := engine.cache.putAction result }
      ⟨{ hand with actions := result :: hand.actions }, phase⟩ := by
  have persists : engine.cache.Persists (engine.cache.putAction result) := by
    refine ⟨fun _ _ => id, fun id old found => ?_, fun _ _ => id⟩
    rw [Cache.action?_putAction]
    exact fresh.keeps result found
  refine ⟨⟨sound.cache.putAction persists, sound.recos, ?_, sound.nodes⟩, ⟨⟨?_, ?_, ?_⟩, rests _⟩,
    persists⟩
  · show Table.Within (engine.cache.putAction result).action? engine.ids.action
    rw [Cache.action?_putAction]
    exact sound.actions.put fresh.drawn result
  · exact holds.recos
  · intro one member
    rcases List.mem_cons.mp member with rfl | member
    · show (engine.cache.putAction one).action? one.id = some one
      rw [Cache.action?_putAction]
      exact Table.put_self _ _ _
    · exact persists.actions _ _ (holds.actions one member)
  · exact holds.visit

/-- What a visit refers to is on record if it is in hand. -/
theorem Hand.Supports.backs {detail : NodeDetail} (supports : hand.Supports detail)
    (holds : hand.Holds engine) : engine.cache.Backs detail where
  reco valid := by
    obtain ⟨result, member, same, named⟩ := supports.reco valid
    exact ⟨result, same ▸ holds.recos result member, named⟩
  action valid := by
    obtain ⟨result, member, same, fits⟩ := supports.action valid
    exact ⟨result, same ▸ holds.actions result member, fits⟩
  completed completes := by
    obtain ⟨result, member, same, isHit⟩ := supports.completed completes
    exact ⟨result, same ▸ holds.recos result member, isHit⟩

/-- A visit is put on record under the number drawn for it. -/
theorem Course.Leaves.visit {detail : NodeDetail} (sound : engine.Sound)
    (holds : hand.Holds engine) (drawn : hand.visit = some detail.id)
    (supports : hand.Supports detail) :
    Course.Leaves engine { engine with cache := engine.cache.putNode detail }
      ⟨{ hand with visit := none }, .filed detail⟩ := by
  have fresh := holds.visit detail.id drawn
  have persists : engine.cache.Persists (engine.cache.putNode detail) := by
    refine ⟨fun _ _ => id, fun _ _ => id, fun id old found => ?_⟩
    rw [Cache.node?_putNode_eq]
    exact fresh.keeps detail found
  refine ⟨⟨sound.cache.putNode persists (supports.backs holds), sound.recos, sound.actions, ?_⟩,
    ⟨⟨holds.recos, holds.actions, nofun⟩, ?_, ?_⟩, persists⟩
  · show Table.Within (engine.cache.putNode detail).node? engine.ids.node
    rw [Cache.node?_putNode_eq]
    exact sound.nodes.put fresh.drawn detail
  · show (engine.cache.putNode detail).node? detail.id = some detail
    rw [Cache.node?_putNode_eq]
    exact Table.put_self _ _ _
  · exact sound.cache.precedes fresh

/-- **A step of a run leaves every reference sound and changes no record.** -/
theorem Course.Go.leaves {task : TaskId} {isPipeline : Prop} {course course' : Course}
    {before after : Engine} (go : Go task isPipeline course before after course')
    (sound : before.Sound) (holds : course.Holds before) (upward : before.Upward after) :
    Course.Leaves before after course' := by
  have still : after.cache = before.cache → after.Sound := fun same => sound.raise same upward
  obtain ⟨inHand, isPhase⟩ := holds
  cases go with
  | idle step =>
    cases step with
    | look => exact ⟨sound, ⟨inHand, isPhase⟩, .refl _⟩
    | count =>
      exact ⟨still rfl, Holds.among ⟨inHand, isPhase⟩ (Engine.leaves_of_eq rfl) upward, .refl _⟩
  | drawReco =>
    exact ⟨still rfl, ⟨⟨inHand.recos, inHand.actions, inHand.visit⟩,
      sound.recos.fresh upward.reco⟩, .refl _⟩
  | announceReco event opens =>
    exact ⟨still rfl, ⟨⟨inHand.recos, inHand.actions, inHand.visit⟩, isPhase⟩, .refl _⟩
  | fileReco same => exact .reco sound inHand (same ▸ isPhase) fun _ => trivial
  | reportReco =>
    exact ⟨still rfl, ⟨⟨inHand.recos, inHand.actions, inHand.visit⟩, trivial⟩, .refl _⟩
  | giveReco result => exact .reco sound inHand isPhase fun _ => trivial
  | drawVisit =>
    refine ⟨still rfl, ⟨⟨inHand.recos, inHand.actions, ?_⟩, trivial⟩, .refl _⟩
    rintro _ ⟨⟩
    exact sound.nodes.fresh upward.node
  | drawAction =>
    exact ⟨still rfl, ⟨⟨inHand.recos, inHand.actions, inHand.visit⟩,
      sound.actions.fresh upward.action⟩, .refl _⟩
  | announceAction event opens led =>
    exact ⟨still rfl, ⟨⟨inHand.recos, inHand.actions, inHand.visit⟩, isPhase⟩, .refl _⟩
  | fileAction same => exact .action sound inHand (same ▸ isPhase) fun _ => trivial
  | reportAction =>
    exact ⟨still rfl, ⟨⟨inHand.recos, inHand.actions, inHand.visit⟩, trivial⟩, .refl _⟩
  | fileVisit drawn supports => exact .visit sound inHand drawn supports
  | noteVisit =>
    exact ⟨⟨sound.cache.putLatest isPhase.1, sound.recos, sound.actions, sound.nodes⟩,
      ⟨⟨inHand.recos, inHand.actions, inHand.visit⟩, isPhase⟩, .of_eq rfl rfl rfl⟩
  | @listVisit _ detail =>
    have agrees : before.cache.Agrees (before.cache.pushVisit task detail.id).2 :=
      Cache.agrees_changeTask before.cache task _
    refine ⟨⟨sound.cache.pushVisit isPhase.1 isPhase.2 task, ?_, ?_, ?_⟩,
      ⟨inHand.keep agrees.persists agrees.node? upward, trivial⟩, agrees.persists⟩
    · rw [agrees.reco?]
      exact sound.recos
    · rw [agrees.action?]
      exact sound.actions
    · rw [agrees.node?]
      exact sound.nodes

end Step

/-! ## Runs one after another -/

/-- An engine on which one run follows another. -/
structure Series where
  engine : Engine
  /-- What is left of the run that is under way. -/
  rest : Engine.Acting RunResult

namespace Series

open Activity

/-- A run at its beginning. -/
inductive Begins : Engine.Acting RunResult → Prop where
  | walk (context : RunContext) (memory : Memory) (entry : String) :
      Begins (Prod.snd <$> context.run memory entry)
  | recognition (context : RunContext) (entry : String) : Begins (context.recognizeOnce entry)
  | action (context : RunContext) (entry : String) (box : Rect) :
      Begins (context.actOnce entry box)

/-- One step of a run, an answer to its question, the beginning of the next run, or a change
that others make. -/
inductive Step : Series → Series → Prop where
  | begin {series : Series} {result : RunResult} {run : Engine.Acting RunResult}
      (idle : series.rest = .done result) (begins : Begins run) :
      Step series { series with rest := run }
  | move {series : Series} {engine : Engine} {rest : Engine.Acting RunResult}
      (moves : series.rest.Moves series.engine rest engine) : Step series ⟨engine, rest⟩
  | others {series : Series} {engine : Engine} (leaves : series.engine.LeavesRecords engine) :
      Step series { series with engine }

/-- A series leads to another one by one step in which no counter starts again. -/
def Goes (before after : Series) : Prop := Step before after ∧ before.engine.Upward after.engine

/-- A series leads to another one by any number of steps. -/
abbrev Leads : Series → Series → Prop := Relation.ReflTransGen Goes

/-- The run that is under way has come so far, and what it relies on holds. -/
structure Orderly (series : Series) : Prop where
  sound : series.engine.Sound
  obeys : ∃ task course, course.Holds series.engine ∧
    series.rest.Obeys (Course.Go task False) Course.Over course

variable {first series later : Series}

theorem Begins.obeys {run : Engine.Acting RunResult} (begins : Begins run) :
    ∃ task, run.Obeys (Course.Go task False) Course.Over ⟨.empty, .calm⟩ := by
  cases begins with
  | walk context memory entry =>
    exact ⟨context.task, (context.run_goes memory entry).bind fun _ _ calm => calm⟩
  | recognition context entry => exact ⟨context.task, context.recognizeOnce_goes entry⟩
  | action context entry box => exact ⟨context.task, context.actOnce_goes entry box id⟩

theorem holds_empty (engine : Engine) : Course.Holds ⟨.empty, .calm⟩ engine :=
  ⟨⟨nofun, nofun, nofun⟩, trivial⟩

/-- **Every step leaves the references sound and changes no record.** -/
theorem Orderly.goes (orderly : series.Orderly) (goes : series.Goes later) :
    later.Orderly ∧ series.engine.cache.Persists later.engine.cache := by
  obtain ⟨sound, task, course, holds, obeys⟩ := orderly
  obtain ⟨step, upward⟩ := goes
  cases step with
  | begin idle begins =>
    obtain ⟨task, obeys⟩ := begins.obeys
    exact ⟨⟨sound, task, _, holds_empty _, obeys⟩, .refl _⟩
  | move moves =>
    obtain ⟨course', go, obeys⟩ := obeys.moves moves
    have leaves := go.leaves sound holds upward
    exact ⟨⟨leaves.sound, task, course', leaves.holds, obeys⟩, leaves.persists⟩
  | others leaves =>
    exact ⟨⟨sound.among leaves upward, task, course, holds.among leaves upward, obeys⟩,
      leaves.agrees.persists⟩

theorem Orderly.leads (orderly : series.Orderly) (leads : series.Leads later) :
    later.Orderly ∧ series.engine.cache.Persists later.engine.cache := by
  induction leads with
  | refl => exact ⟨orderly, .refl _⟩
  | tail _ goes ih =>
    obtain ⟨orderly, persists⟩ := ih
    obtain ⟨orderly, onward⟩ := orderly.goes goes
    exact ⟨orderly, persists.trans onward⟩

/-- A series that has not begun is orderly if the cache is empty. -/
theorem orderly_start {result : RunResult} (empty : first.engine.cache = .empty)
    (idle : first.rest = .done result) : first.Orderly where
  sound := Engine.sound_of_empty empty
  obeys := by
    refine ⟨.invalid, _, holds_empty _, ?_⟩
    rw [idle]
    exact rfl

/-- **References between records resolve at every moment of every series of runs, and no
record is changed later on.** -/
theorem references_resolve {result : RunResult} (empty : first.engine.cache = .empty)
    (idle : first.rest = .done result) (leads : first.Leads series) :
    series.engine.cache.Sound ∧
      ∀ later, series.Leads later → series.engine.cache.Persists later.engine.cache := by
  have orderly := ((orderly_start empty idle).leads leads).1
  exact ⟨orderly.sound.cache, fun later onward => (orderly.leads onward).2⟩

/-! ### A node that is recognized once -/

/-- Without others, a series leads from the beginning of a run to its end. -/
theorem leads_ends {run : Engine.Acting RunResult} {engine final : Engine} {result : RunResult}
    (ends : run.Ends ⟨Eq, Engine.Upward⟩ engine result final) :
    Leads ⟨engine, run⟩ ⟨final, .done result⟩ := by
  refine ends.induct (fun rest engine' => Leads ⟨engine, run⟩ ⟨engine', rest⟩) .refl
    (fun _ _ same => same) fun activity rest before after moves own leads => ?_
  refine leads.tail ⟨.move moves, ?_⟩
  rcases own with rfl | upward
  · exact Engine.upward_of_eq rfl
  · exact upward

open RunContext in
/-- A node is recognized, and its visit is listed. -/
theorem hasty_recognizes : ∃ final visit,
    (hasty.recognizeOnce "A").Ends ⟨Eq, Engine.Upward⟩ posted (.ended .succeeded) final ∧
    (final.cache.task? ⟨1⟩).map TaskDetail.visits = some [visit] := by
  have isNode : hasty.graph.find? "A" = some fleeting := by
    rw [hasty, Graph.find?_insert]
    rfl
  have still : ∀ {before after : Engine}, after.ids = before.ids → before.Upward after :=
    Engine.upward_of_eq
  have listed : (posted.cache.task? ⟨1⟩).map TaskDetail.visits = some [] := by
    simp [posted, Cache.task?, Cache.putTask, TaskDetail.posted]
  unfold recognizeOnce onNode
  rw [isNode]
  refine ⟨?final, ?visit, ?ends, ?visits⟩
  case ends =>
    refine .step rfl (still rfl) ?_
    refine .step rfl ⟨by decide, by decide, by decide⟩ ?_
    refine .ask (Reply.returned (some (default : Frame))) ?_
    refine .step rfl (still rfl) ?_
    refine .step rfl ⟨by decide, by decide, by decide⟩ ?_
    refine .step rfl (still rfl) ?_
    refine .ask (Reply.returned (some (default : Recognition))) ?_
    refine .step rfl (still rfl) ?_
    refine .step rfl (still rfl) ?_
    refine .step rfl (still rfl) ?_
    refine .step rfl (still rfl) ?_
    refine .step rfl (still rfl) ?_
    exact .done _ _
  case visits => exact Cache.visits_pushVisit listed _

/-- A task is posted. -/
theorem posted_leaves : (Engine.new false).LeavesRecords RunContext.posted where
  agrees := ⟨rfl, rfl, rfl, rfl⟩
  visits task detail found := by
    simp only [RunContext.posted, Cache.task?, Cache.putTask,
      Std.ExtTreeMap.getElem?_insert] at found
    split at found
    · cases found
      exact .inl rfl
    · cases found

/-- A task is posted and its node recognized; then its visit is listed, and all references
resolve. -/
theorem hasty_references : ∃ (first series : Series) (result : RunResult) (visit : NodeId),
    first.engine.cache = .empty ∧ first.rest = .done result ∧ first.Leads series ∧
    (series.engine.cache.task? ⟨1⟩).map TaskDetail.visits = some [visit] ∧
    series.engine.cache.Sound ∧
    ∀ later, series.Leads later → series.engine.cache.Persists later.engine.cache := by
  obtain ⟨final, visit, ends, listed⟩ := hasty_recognizes
  have posts : Goes ⟨.new false, .done (.ended .stopped)⟩
      ⟨RunContext.posted, .done (.ended .stopped)⟩ :=
    ⟨.others posted_leaves, Engine.upward_of_eq rfl⟩
  have begins : Goes ⟨RunContext.posted, .done (.ended .stopped)⟩
      ⟨RunContext.posted, RunContext.hasty.recognizeOnce "A"⟩ :=
    ⟨.begin rfl (.recognition _ _), Engine.upward_of_eq rfl⟩
  have leads := ((Relation.ReflTransGen.single posts).tail begins).trans (leads_ends ends)
  exact ⟨_, _, _, visit, rfl, rfl, leads, listed, references_resolve rfl rfl leads⟩

end Series

end ScreenPilot
