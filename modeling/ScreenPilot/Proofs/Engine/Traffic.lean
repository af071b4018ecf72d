import Mathlib.Logic.Relation
import ScreenPilot.Proofs.Run.Sightings

/-!
# Visits that are recorded while the cache is cleared

Any number of visits may be recorded while the cache is cleared, any number of times. Each access
to a table happens at once, but to record a visit takes two of them and to clear the cache five
(`Cache.recordNode_eq`, `Cache.clear_eq`), and in between others may make theirs.

When all calls are over, a name that has a last visit has a record of it, or the clearing has
outrun the recording: both tables were cleared after the record was made and before the name was
given the visit (`Traffic.Outrun`); or the number of the visit was used again, for a node of
another name (`Traffic.Refiled`). So if each number is used once, what the index says fails
exactly if the recording was outrun (`Traffic.visits_or_outrun`), which can happen to any visit
(`Traffic.leads_outrun`). While nobody clears the visits it never fails, at no moment
(`Traffic.visits_of_uncleared`): a visit is on record before the index says so.
-/

set_option autoImplicit false

namespace ScreenPilot

namespace Cache

/-! ## Accesses -/

/-- An access to one table that changes it. -/
inductive Access where
  | file (detail : NodeDetail)
  | index (name : String) (visit : NodeId)
  | dropRecos
  | dropActions
  | dropVisits
  | dropIndex
  | dropTasks
deriving DecidableEq

namespace Access

def change : Access → Cache → Cache
  | .file detail => putNode detail
  | .index name visit => putLatest name visit
  | .dropRecos => fun cache => { cache with recos := ∅ }
  | .dropActions => fun cache => { cache with actions := ∅ }
  | .dropVisits => fun cache => { cache with nodes := ∅ }
  | .dropIndex => fun cache => { cache with latest := ∅ }
  | .dropTasks => fun cache => { cache with tasks := ∅ }

/-- A visit of this number is put on record. -/
def files (visit : NodeId) : Access → Bool
  | .file detail => detail.id = visit
  | _ => false

end Access

/-- The accesses of a visit that is recorded. -/
def recording (detail : NodeDetail) : List Access := [.file detail, .index detail.name detail.id]

/-- The accesses when the cache is cleared. -/
def clearing : List Access := [.dropRecos, .dropActions, .dropVisits, .dropIndex, .dropTasks]

variable {interface : Interface}

/-- Makes accesses one after another. -/
def perform : List Access → Activity interface Cache Unit
  | [] => pure ()
  | access :: accesses => do
    Activity.modify access.change
    perform accesses

theorem recordNode_eq (detail : NodeDetail) :
    (recordNode detail : Activity interface Cache Unit) = perform (recording detail) := rfl

theorem clear_eq : (clear : Activity interface Cache Unit) = perform clearing := rfl

/-! ## What accesses make of the tables -/

/-- Accesses, each with the caller who made it. -/
abbrev History : Type := List (Nat × Access)

/-- What accesses make of an empty cache. -/
def replay (history : History) : Cache :=
  history.foldl (fun cache entry => entry.2.change cache) empty

theorem replay_concat (history : History) (entry : Nat × Access) :
    replay (history ++ [entry]) = entry.2.change (replay history) := by
  simp [replay]

variable {history : History} {name : String} {visit : NodeId}

/-- What holds only from when one access was made until another one is, was made to hold after the
other one was made for the last time. -/
theorem exists_last (holds : Cache → Prop) {makes ends : Access} (never : ¬ holds empty)
    (stays : ∀ cache access, access ≠ makes → holds (access.change cache) → holds cache)
    (stops : ∀ cache, ¬ holds (ends.change cache)) (held : holds (replay history)) :
    ∃ before caller after, history = before ++ (caller, makes) :: after ∧
      ∀ other, (other, ends) ∉ after := by
  induction history using List.reverseRecOn with
  | nil => exact absurd held never
  | append_singleton history entry ih =>
    obtain ⟨last, access⟩ := entry
    rw [replay_concat] at held
    by_cases isMaker : access = makes
    · subst isMaker
      exact ⟨history, last, [], rfl, nofun⟩
    · obtain ⟨before, caller, after, rfl, kept⟩ := ih (stays _ _ isMaker held)
      refine ⟨before, caller, after ++ [(last, access)], by simp, fun other member => ?_⟩
      rcases List.mem_append.mp member with member | member
      · exact kept other member
      · cases List.mem_singleton.mp member
        exact stops _ held

/-- A name that has a last visit was given it after the index was cleared for the last time. -/
theorem exists_index (isLast : (replay history).latest? name = some visit) :
    ∃ before caller after, history = before ++ (caller, .index name visit) :: after ∧
      ∀ other, (other, Access.dropIndex) ∉ after := by
  refine exists_last (fun cache => cache.latest? name = some visit) ?_ ?_ ?_ isLast
  · simp [empty, latest?]
  · intro cache access other held
    cases access with
    | index name' visit' =>
      simp only [Access.change, latest?_putLatest] at held
      split at held
      · subst_vars
        cases held
        exact absurd rfl other
      · exact held
    | dropIndex => simp [Access.change, latest?] at held
    | _ => exact held
  · simp [Access.change, latest?]

/-- What is on record of a visit was recorded after the visits were cleared for the last time. -/
theorem exists_file {detail : NodeDetail} (isFound : (replay history).node? visit = some detail) :
    ∃ before caller after, history = before ++ (caller, .file detail) :: after ∧
      ∀ other, (other, Access.dropVisits) ∉ after := by
  refine exists_last (fun cache => cache.node? visit = some detail) ?_ ?_ ?_ isFound
  · simp [empty, node?]
  · intro cache access other held
    cases access with
    | file detail' =>
      simp only [Access.change, node?_putNode] at held
      split at held
      · cases held
        exact absurd rfl other
      · exact held
    | dropVisits => simp [Access.change, node?] at held
    | _ => exact held
  · simp [Access.change, node?]

/-- A visit is on record under its number. -/
theorem id_of_node? {detail : NodeDetail} (isFound : (replay history).node? visit = some detail) :
    detail.id = visit := by
  induction history using List.reverseRecOn with
  | nil => simp [replay, empty, node?] at isFound
  | append_singleton history entry ih =>
    rw [replay_concat] at isFound
    cases access : entry.2 with
    | file detail' =>
      simp only [access, Access.change, node?_putNode] at isFound
      split at isFound
      · cases isFound
        assumption
      · exact ih isFound
    | dropVisits => simp [access, Access.change, node?] at isFound
    | _ =>
      rw [access] at isFound
      exact ih isFound

/-- A record stays until visits are cleared, or the number is used for another name. -/
theorem visits_of_file {before after : History} {caller : Nat} {detail : NodeDetail}
    (kept : ∀ other, (other, Access.dropVisits) ∉ after)
    (same : ∀ other detail', (other, Access.file detail') ∈ after → detail'.id = detail.id →
      detail'.name = detail.name) :
    (replay (before ++ (caller, .file detail) :: after)).Visits detail.name detail.id := by
  induction after using List.reverseRecOn with
  | nil =>
    rw [replay_concat]
    exact ⟨detail, by simp [Access.change, node?_putNode], rfl⟩
  | append_singleton after entry ih =>
    obtain ⟨last, access⟩ := entry
    obtain ⟨found, isFound, named⟩ := ih
      (fun other member => kept other (List.mem_append_left _ member))
      fun other detail' member => same other detail' (List.mem_append_left _ member)
    rw [← List.cons_append, ← List.append_assoc, replay_concat]
    cases access with
    | file detail' =>
      by_cases isSame : detail'.id = detail.id
      · refine ⟨detail', by simp [Access.change, node?_putNode, isSame], ?_⟩
        exact same last detail' (by simp) isSame
      · exact ⟨found, by simpa [Access.change, node?_putNode, isSame] using isFound, named⟩
    | dropVisits => exact absurd (List.mem_append_right _ List.mem_cons_self) (kept last)
    | _ => exact ⟨found, isFound, named⟩

/-! ## Calls -/

/-- A cache, what is left of each call, and the accesses that were made. -/
structure Traffic where
  cache : Cache
  calls : List (List Access)
  history : History

namespace Traffic

/-- An empty cache before all calls. -/
def fresh : Traffic := ⟨.empty, [], []⟩

/-- A call at its beginning. -/
inductive Begins : List Access → Prop where
  | record (detail : NodeDetail) : Begins (recording detail)
  | clear : Begins clearing

inductive Step : Traffic → Traffic → Prop where
  | begin {traffic : Traffic} {call : List Access} (begins : Begins call) :
      Step traffic { traffic with calls := traffic.calls ++ [call] }
  /-- A call makes its next access. -/
  | access {traffic : Traffic} {caller : Nat} {access : Access} {rest : List Access}
      (found : traffic.calls[caller]? = some (access :: rest)) :
      Step traffic ⟨access.change traffic.cache, traffic.calls.set caller rest,
        traffic.history ++ [(caller, access)]⟩
  /-- Someone reads, or changes other tables. -/
  | aside {traffic : Traffic} {cache : Cache} (nodes : cache.nodes = traffic.cache.nodes)
      (latest : cache.latest = traffic.cache.latest) : Step traffic { traffic with cache }

/-- Any number of steps leads there. -/
abbrev Leads : Traffic → Traffic → Prop := Relation.ReflTransGen Step

/-- All calls are over. -/
def IsOver (traffic : Traffic) : Prop := ∀ rest ∈ traffic.calls, rest = []

/-- The accesses that a caller made. -/
def made (caller : Nat) (history : History) : List Access :=
  (history.filter fun entry => entry.1 = caller).map Prod.snd

/-- What the callers made is what the calls are not left with. -/
structure Orderly (traffic : Traffic) : Prop where
  callers : ∀ entry ∈ traffic.history, entry.1 < traffic.calls.length
  calls : ∀ caller rest, traffic.calls[caller]? = some rest →
    Begins (made caller traffic.history ++ rest)
  nodes : traffic.cache.nodes = (replay traffic.history).nodes
  latest : traffic.cache.latest = (replay traffic.history).latest

theorem orderly_fresh : fresh.Orderly := ⟨nofun, nofun, rfl, rfl⟩

theorem made_concat (caller other : Nat) (access : Access) :
    made caller (history ++ [(other, access)]) =
      if other = caller then made caller history ++ [access] else made caller history := by
  by_cases same : other = caller <;> simp [made, same]

theorem made_split (caller : Nat) (before after : History) (access : Access) :
    made caller (before ++ (caller, access) :: after) =
      made caller before ++ access :: made caller after := by
  simp [made]

theorem mem_made {caller : Nat} {access : Access} :
    access ∈ made caller history ↔ (caller, access) ∈ history := by
  simp [made]

/-- **Whoever makes a step, the callers keep to their order.** -/
theorem Orderly.step {traffic traffic' : Traffic} (orderly : traffic.Orderly)
    (step : Step traffic traffic') : traffic'.Orderly := by
  cases step with
  | @begin call begins =>
    refine ⟨fun entry member => ?_, fun caller rest found => ?_, orderly.nodes, orderly.latest⟩
    · rw [List.length_append]
      exact Nat.lt_add_right _ (orderly.callers entry member)
    · by_cases isLast : caller = traffic.calls.length
      · subst isLast
        have none : made traffic.calls.length traffic.history = [] := by
          simp only [made, List.map_eq_nil_iff, List.filter_eq_nil_iff, decide_eq_true_eq]
          exact fun entry member => (orderly.callers entry member).ne
        rw [List.getElem?_concat_length] at found
        cases found
        rw [none]
        exact begins
      · have within : caller < traffic.calls.length := by
          have bound := (List.getElem?_eq_some_iff.mp found).1
          rw [List.length_append, List.length_singleton] at bound
          omega
        rw [List.getElem?_append_left within] at found
        exact orderly.calls caller rest found
  | @access caller access rest found =>
    have within := (List.getElem?_eq_some_iff.mp found).1
    constructor
    case callers =>
      intro entry member
      rw [List.length_set]
      rcases List.mem_append.mp member with member | member
      · exact orderly.callers entry member
      · cases List.mem_singleton.mp member
        exact within
    case calls =>
      intro other rest' found'
      rw [made_concat]
      by_cases same : caller = other
      · subst same
        rw [List.getElem?_set_self within] at found'
        cases found'
        simpa using orderly.calls caller _ found
      · rw [List.getElem?_set_ne same] at found'
        rw [if_neg same]
        exact orderly.calls other rest' found'
    case nodes =>
      rw [replay_concat]
      cases access <;> simp [Access.change, putNode, putLatest, orderly.nodes]
    case latest =>
      rw [replay_concat]
      cases access <;> simp [Access.change, putNode, putLatest, orderly.latest]
  | aside nodes latest =>
    exact ⟨orderly.callers, orderly.calls, nodes.trans orderly.nodes, latest.trans orderly.latest⟩

theorem Leads.orderly {traffic : Traffic} (leads : fresh.Leads traffic) : traffic.Orderly := by
  induction leads with
  | refl => exact orderly_fresh
  | tail _ step orderly => exact orderly.step step

/-! ## Recordings that are outrun -/

/-- A visit was put on record, then someone cleared the visits and the index, and then the name
was given the visit. -/
def Outrun (history : History) (name : String) (visit : NodeId) : Prop :=
  ∃ caller clearer detail, detail.name = name ∧ detail.id = visit ∧
    [(caller, .file detail), (clearer, .dropVisits), (clearer, .dropIndex),
      (caller, .index name visit)].Sublist history

/-- The number of a visit was used for another node as well. -/
def Refiled (history : History) (name : String) (visit : NodeId) : Prop :=
  ∃ caller other detail detail',
    (caller, .file detail) ∈ history ∧ (other, .file detail') ∈ history ∧
    detail.id = visit ∧ detail'.id = visit ∧ detail.name = name ∧ detail'.name ≠ name

/-- The number was not used twice. -/
def FiledOnce (history : History) (visit : NodeId) : Prop :=
  history.countP (fun entry => entry.2.files visit) ≤ 1

variable {traffic : Traffic}

/-- Whoever gave a name a visit had put it on record before. -/
theorem Orderly.filed (orderly : traffic.Orderly) {before after : History} {caller : Nat}
    (split : traffic.history = before ++ (caller, .index name visit) :: after) :
    ∃ earlier between detail, before = earlier ++ (caller, .file detail) :: between ∧
      detail.name = name ∧ detail.id = visit := by
  have within : caller < traffic.calls.length :=
    orderly.callers (caller, .index name visit) (by simp [split])
  have begins := orderly.calls caller _ (List.getElem?_eq_getElem within)
  rw [split, made_split, List.append_assoc] at begins
  generalize traffic.calls[caller] = rest at begins
  generalize call : made caller before ++ _ = accesses at begins
  cases begins with
  | record detail =>
    have split' : [.file detail] ++ .index detail.name detail.id :: [] =
        made caller before ++ .index name visit :: (made caller after ++ rest) := call.symm
    have parts := (List.append_cons_inj_of_notMem (by simp) (by simp)).mp split'
    simp only [Access.index.injEq] at parts
    obtain ⟨filed, ⟨named, numbered⟩, -⟩ := parts
    have member : (caller, Access.file detail) ∈ before := by simp [← mem_made, ← filed]
    obtain ⟨earlier, between, rfl⟩ := List.append_of_mem member
    exact ⟨earlier, between, detail, rfl, named, numbered⟩
  | clear =>
    have member : Access.index name visit ∈ clearing := by simp [← call]
    simp [clearing] at member

/-- Whoever has cleared the visits has cleared the index after that, when all calls are over. -/
theorem Orderly.dropped (orderly : traffic.Orderly) (ended : traffic.IsOver)
    {before after : History} {clearer : Nat}
    (split : traffic.history = before ++ (clearer, .dropVisits) :: after) :
    (clearer, .dropIndex) ∈ after := by
  have within : clearer < traffic.calls.length :=
    orderly.callers (clearer, .dropVisits) (by simp [split])
  have begins := orderly.calls clearer _ (List.getElem?_eq_getElem within)
  rw [ended _ (List.getElem_mem within), List.append_nil, split, made_split] at begins
  generalize call : made clearer before ++ _ = accesses at begins
  cases begins with
  | record detail =>
    have member : Access.dropVisits ∈ recording detail := by simp [← call]
    simp [recording] at member
  | clear =>
    have split' : [.dropRecos, .dropActions] ++ .dropVisits :: [.dropIndex, .dropTasks] =
        made clearer before ++ .dropVisits :: made clearer after := call.symm
    have parts := (List.append_cons_inj_of_notMem (by simp) (by simp)).mp split'
    simp [← mem_made, ← parts.2.2]

/-- Two in a row, of which the second is not in the last part, are in the first part. -/
theorem pair_sublist_left {α : Type} {first second : α} {before after : List α}
    (pair : [first, second].Sublist (before ++ after)) (absent : second ∉ after) :
    [first, second].Sublist before := by
  obtain ⟨left, right, both, inBefore, inAfter⟩ := List.sublist_append_iff.mp pair
  rcases List.eq_nil_or_concat right with rfl | ⟨others, last, rfl⟩
  · rwa [both, List.append_nil]
  · have same : last = second := by simpa using (congrArg List.getLast? both).symm
    subst same
    exact absurd (inAfter.subset (by simp)) absent

theorem Orderly.visits_iff (orderly : traffic.Orderly) :
    traffic.cache.Visits name visit ↔ (replay traffic.history).Visits name visit := by
  simp only [Visits, node?, orderly.nodes]

/-- The last visit of a name was put on record before the name was given it, and the index was not
cleared since. -/
theorem Orderly.exists_filed (orderly : traffic.Orderly)
    (isLast : traffic.cache.latest? name = some visit) :
    ∃ earlier between after caller detail, traffic.history = earlier ++ (caller, .file detail) ::
        (between ++ (caller, .index name visit) :: after) ∧
      detail.name = name ∧ detail.id = visit ∧ ∀ other, (other, Access.dropIndex) ∉ after := by
  rw [latest?, orderly.latest] at isLast
  obtain ⟨before, caller, after, split, undropped⟩ := exists_index isLast
  obtain ⟨earlier, between, detail, rfl, named, numbered⟩ := orderly.filed split
  rw [List.append_assoc, List.cons_append] at split
  exact ⟨earlier, between, after, caller, detail, split, named, numbered, undropped⟩

/-- A visit that was not cleared since it was put on record is there, or it was refiled. -/
theorem Orderly.visits_or_refiled (orderly : traffic.Orderly) {earlier later : History}
    {caller : Nat} {detail : NodeDetail}
    (split : traffic.history = earlier ++ (caller, .file detail) :: later)
    (uncleared : ∀ other, (other, Access.dropVisits) ∉ later) :
    traffic.cache.Visits detail.name detail.id ∨
      Refiled traffic.history detail.name detail.id := by
  by_cases refiled : ∃ other detail', (other, Access.file detail') ∈ later ∧
      detail'.id = detail.id ∧ detail'.name ≠ detail.name
  · obtain ⟨other, detail', member, same, differs⟩ := refiled
    refine .inr ⟨caller, other, detail, detail', ?_, ?_, rfl, same, rfl, differs⟩
    · simp [split]
    · simp [split, member]
  · left
    rw [orderly.visits_iff, split]
    apply visits_of_file uncleared
    intro other detail' member same
    by_contra differs
    exact refiled ⟨other, detail', member, same, differs⟩

/-- **When all calls are over, a last visit is on record, or it was outrun or refiled.** -/
theorem Orderly.visits_or (orderly : traffic.Orderly) (ended : traffic.IsOver)
    (isLast : traffic.cache.latest? name = some visit) :
    traffic.cache.Visits name visit ∨ Outrun traffic.history name visit ∨
      Refiled traffic.history name visit := by
  obtain ⟨earlier, between, after, caller, detail, split, rfl, rfl, undropped⟩ :=
    orderly.exists_filed isLast
  by_cases cleared : ∃ clearer, (clearer, Access.dropVisits) ∈
      between ++ (caller, .index detail.name detail.id) :: after
  · -- Whoever cleared the visits cleared the index too, and this was not after the name was given.
    obtain ⟨clearer, member⟩ := cleared
    obtain ⟨first, second, split'⟩ := List.append_of_mem member
    have whole : traffic.history =
        (earlier ++ (caller, .file detail) :: first) ++ (clearer, .dropVisits) :: second := by
      rw [split, split']
      simp
    have drops : (clearer, Access.dropIndex) ∈ second := orderly.dropped ended whole
    have drop : [(clearer, Access.dropVisits), (clearer, Access.dropIndex)].Sublist
        (between ++ (caller, .index detail.name detail.id) :: after) := by
      rw [split']
      exact .trans (.cons_cons _ (List.singleton_sublist.mpr drops)) (List.sublist_append_right _ _)
    have unlater : (clearer, Access.dropIndex) ∉
        (caller, Access.index detail.name detail.id) :: after := by
      simpa using undropped clearer
    refine .inr (.inl ⟨caller, clearer, detail, rfl, rfl, ?_⟩)
    rw [split]
    refine .trans (.cons_cons _ ?_) (List.sublist_append_right _ _)
    exact (pair_sublist_left drop unlater).append (List.singleton_sublist.mpr List.mem_cons_self)
  · exact (orderly.visits_or_refiled split (not_exists.mp cleared)).imp_right .inr

/-- **While nobody clears the visits, the index never dangles**: at every moment a last visit is on
record, unless its number was used for another name. -/
theorem visits_of_uncleared {traffic : Traffic} (leads : fresh.Leads traffic)
    (uncleared : ∀ other, (other, Access.dropVisits) ∉ traffic.history)
    (isLast : traffic.cache.latest? name = some visit) :
    traffic.cache.Visits name visit ∨ Refiled traffic.history name visit := by
  obtain ⟨earlier, between, after, caller, detail, split, rfl, rfl, -⟩ :=
    leads.orderly.exists_filed isLast
  apply leads.orderly.visits_or_refiled split
  intro other member
  apply uncleared other
  rw [split]
  exact List.mem_append_right _ (List.mem_cons_of_mem _ member)

/-- Under a number that was used once, no two visits were put on record. -/
theorem FiledOnce.not_twice (once : FiledOnce history visit) {caller other : Nat}
    {detail detail' : NodeDetail} (numbered : detail.id = visit) (numbered' : detail'.id = visit) :
    ¬ [(caller, Access.file detail), (other, Access.file detail')].Sublist history := by
  intro twice
  have both := twice.countP_le (p := fun entry => entry.2.files visit)
  have two : [(caller, Access.file detail), (other, Access.file detail')].countP
      (fun entry => entry.2.files visit) = 2 := by
    simp [Access.files, numbered, numbered']
  have atMost : history.countP (fun entry => entry.2.files visit) ≤ 1 := once
  omega

/-- A visit that was outrun is not on record, unless its number was used twice. -/
theorem Orderly.not_visits_of_outrun (orderly : traffic.Orderly)
    (once : FiledOnce traffic.history visit) (outrun : Outrun traffic.history name visit) :
    ¬ traffic.cache.Visits name visit := by
  rw [orderly.visits_iff]
  rintro ⟨found, isFound, -⟩
  obtain ⟨before, other, after, split, kept⟩ := exists_file isFound
  obtain ⟨caller, clearer, detail, -, numbered, sequence⟩ := outrun
  -- The record that is there came after the clearing, so it is not the one that was outrun.
  have pair : [(caller, Access.file detail), (clearer, Access.dropVisits)].Sublist
      (before ++ (other, .file found) :: after) := by
    rw [← split]
    exact (List.sublist_append_left _ [_, _]).trans sequence
  have absent : (clearer, Access.dropVisits) ∉ (other, Access.file found) :: after := by
    simpa using kept clearer
  have earlier : (caller, Access.file detail) ∈ before :=
    (pair_sublist_left pair absent).subset List.mem_cons_self
  have twice : [(caller, Access.file detail), (other, Access.file found)].Sublist
      traffic.history := by
    rw [split]
    exact (List.singleton_sublist.mpr earlier).append
      (List.singleton_sublist.mpr List.mem_cons_self)
  exact once.not_twice numbered (id_of_node? isFound) twice

theorem FiledOnce.not_refiled (once : FiledOnce history visit) : ¬ Refiled history name visit := by
  rintro ⟨caller, other, detail, detail', member, member', numbered, numbered', named, differs⟩
  obtain ⟨before, after, rfl⟩ := List.append_of_mem member
  rcases List.mem_append.mp member' with earlier | later
  · apply once.not_twice numbered' numbered
    exact (List.singleton_sublist.mpr earlier).append
      (List.singleton_sublist.mpr List.mem_cons_self)
  · rcases List.mem_cons.mp later with same | later
    · cases same
      exact differs named
    · apply once.not_twice numbered numbered'
      exact .trans (.cons_cons _ (List.singleton_sublist.mpr later)) (List.sublist_append_right _ _)

/-- **What the index of last visits says.** When all calls are over, the visit that a name has as
its last is on record under this name, or it was outrun by a clearing, or its number was used for
another name. If each number is used once, it is on record exactly if it was not outrun. -/
theorem visits_or_outrun {traffic : Traffic} (leads : fresh.Leads traffic) (ended : traffic.IsOver)
    {name : String} {visit : NodeId} (isLast : traffic.cache.latest? name = some visit) :
    (traffic.cache.Visits name visit ∨ Outrun traffic.history name visit ∨
        Refiled traffic.history name visit) ∧
      (FiledOnce traffic.history visit →
        (traffic.cache.Visits name visit ↔ ¬ Outrun traffic.history name visit)) := by
  have orderly := leads.orderly
  have cases := orderly.visits_or ended isLast
  refine ⟨cases, fun once => ⟨fun visits outrun => ?_, fun kept => ?_⟩⟩
  · exact orderly.not_visits_of_outrun once outrun visits
  · rcases cases with visits | outrun | refiled
    · exact visits
    · exact absurd outrun kept
    · exact absurd refiled once.not_refiled

/-! ## How a recording is outrun -/

/-- A call may make its next accesses with none in between. -/
theorem leads_perform (front back : List (List Access)) (accesses rest : List Access)
    (cache : Cache) (history : History) :
    Leads ⟨cache, front ++ (accesses ++ rest) :: back, history⟩
      ⟨accesses.foldl (fun cache access => access.change cache) cache, front ++ rest :: back,
        history ++ accesses.map (front.length, ·)⟩ := by
  induction accesses generalizing cache history with
  | nil => simpa using Relation.ReflTransGen.refl
  | cons access accesses ih =>
    have found : (front ++ (access :: accesses ++ rest) :: back)[front.length]? =
        some (access :: (accesses ++ rest)) := by simp
    have step : Step ⟨cache, front ++ (access :: accesses ++ rest) :: back, history⟩ _ :=
      .access found
    refine .head step ?_
    simpa using ih (access.change cache) (history ++ [(front.length, access)])

/-- A visit is recorded while the cache is cleared: it is put on record, then everything is
dropped, and then it is made the last one of its node. -/
def outrun (traffic : Traffic) (detail : NodeDetail) : Traffic where
  cache := putLatest detail.name detail.id
    (clearing.foldl (fun cache access => access.change cache) (putNode detail traffic.cache))
  calls := traffic.calls ++ [[], []]
  history := traffic.history ++ (traffic.calls.length, .file detail) ::
    (clearing.map (traffic.calls.length + 1, ·) ++
      [(traffic.calls.length, .index detail.name detail.id)])

/-- **Any visit can be outrun**, whatever was done before. -/
theorem leads_outrun (traffic : Traffic) (detail : NodeDetail) :
    traffic.Leads (traffic.outrun detail) := by
  let index := Access.index detail.name detail.id
  have records : traffic.Leads { traffic with calls := traffic.calls ++ [recording detail] } :=
    .single (.begin (.record detail))
  have begins : Leads { traffic with calls := traffic.calls ++ [recording detail] }
      { traffic with calls := traffic.calls ++ [recording detail] ++ [clearing] } :=
    .single (.begin .clear)
  have files := leads_perform traffic.calls [clearing] [.file detail] [index] traffic.cache
    traffic.history
  have clears := leads_perform (traffic.calls ++ [[index]]) [] clearing []
    (putNode detail traffic.cache) (traffic.history ++ [(traffic.calls.length, .file detail)])
  have indexes := leads_perform traffic.calls [[]] [index] []
    (clearing.foldl (fun cache access => access.change cache) (putNode detail traffic.cache))
    (traffic.history ++ (traffic.calls.length, .file detail) ::
      clearing.map (traffic.calls.length + 1, ·))
  simp only [List.append_assoc, List.cons_append, List.nil_append, List.append_nil, List.foldl_cons,
    List.foldl_nil, List.map_cons, List.map_nil, List.length_append, List.length_singleton] at *
  exact records.trans (begins.trans (files.trans (clears.trans indexes)))

/-- A visit that was outrun is the last one of its node, and not on record. -/
theorem outrun_dangles (traffic : Traffic) (detail : NodeDetail) :
    (traffic.outrun detail).cache.latest? detail.name = some detail.id ∧
      (traffic.outrun detail).cache.node? detail.id = none := by
  constructor
  · simp [outrun, latest?_putLatest]
  · simp [outrun, clearing, Access.change, putLatest, node?]

theorem outrun_isOver {traffic : Traffic} (ended : traffic.IsOver) (detail : NodeDetail) :
    (traffic.outrun detail).IsOver := by
  intro rest member
  rcases List.mem_append.mp member with member | member
  · exact ended rest member
  · simpa using member

theorem fresh_isOver : fresh.IsOver := by simp [IsOver, fresh]

/-- One visit is recorded, and then another one under the same number. -/
def refiled (detail detail' : NodeDetail) : Traffic where
  cache := putLatest detail'.name detail'.id (putNode detail'
    (putLatest detail.name detail.id (putNode detail .empty)))
  calls := [[], []]
  history := [(0, .file detail), (0, .index detail.name detail.id), (1, .file detail'),
    (1, .index detail'.name detail'.id)]

theorem leads_refiled (detail detail' : NodeDetail) : fresh.Leads (refiled detail detail') := by
  have first := leads_perform [] [] (recording detail) [] .empty []
  have second := leads_perform [[]] [] (recording detail') []
    (putLatest detail.name detail.id (putNode detail .empty))
    [(0, .file detail), (0, .index detail.name detail.id)]
  exact .head (.begin (.record detail)) (first.trans (.head (.begin (.record detail')) second))

/-- A visit of a node named `A`. -/
def visitA : NodeDetail := { (default : NodeDetail) with id := ⟨1⟩, name := "A" }

/-- A visit of a node named `B` under the same number. -/
def visitB : NodeDetail := { (default : NodeDetail) with id := ⟨1⟩, name := "B" }

/-- All calls are over, and the index leads to no record, or to one of another name. -/
theorem index_dangles :
    (∃ traffic, fresh.Leads traffic ∧ traffic.IsOver ∧
      traffic.cache.latest? "A" = some ⟨1⟩ ∧ traffic.cache.node? ⟨1⟩ = none) ∧
    ∃ traffic, fresh.Leads traffic ∧ traffic.IsOver ∧
      traffic.cache.latest? "A" = some ⟨1⟩ ∧ traffic.cache.node? ⟨1⟩ = some visitB := by
  refine ⟨⟨fresh.outrun visitA, leads_outrun fresh visitA, outrun_isOver fresh_isOver visitA,
    outrun_dangles fresh visitA⟩, refiled visitA visitB, leads_refiled visitA visitB, ?_, ?_, ?_⟩
  · simp [IsOver, refiled]
  · have kept (detail : NodeDetail) (cache : Cache) (name : String) :
        (putNode detail cache).latest? name = cache.latest? name := rfl
    simp [refiled, latest?_putLatest, kept, visitA, visitB]
  · simp [refiled, node?, putLatest, putNode, visitA, visitB]

/-- A visit that is recorded while the cache is cleared is outrun, and not on record. -/
theorem visits_or_outrun_cleared :
    fresh.Leads (fresh.outrun visitA) ∧ (fresh.outrun visitA).IsOver ∧
      (fresh.outrun visitA).cache.latest? "A" = some ⟨1⟩ ∧
      FiledOnce (fresh.outrun visitA).history ⟨1⟩ ∧ Outrun (fresh.outrun visitA).history "A" ⟨1⟩ ∧
      ¬ (fresh.outrun visitA).cache.Visits "A" ⟨1⟩ := by
  have leads := leads_outrun fresh visitA
  have ended : (fresh.outrun visitA).IsOver := outrun_isOver fresh_isOver visitA
  have isLast := (outrun_dangles fresh visitA).1
  have once : FiledOnce (fresh.outrun visitA).history ⟨1⟩ := by
    unfold FiledOnce
    decide
  have outrun : Outrun (fresh.outrun visitA).history "A" ⟨1⟩ := by
    refine ⟨0, 1, visitA, rfl, rfl, ?_⟩
    decide
  refine ⟨leads, ended, isLast, once, outrun, fun visits => ?_⟩
  exact ((visits_or_outrun leads ended isLast).2 once).mp visits outrun

end Traffic

end Cache

end ScreenPilot
