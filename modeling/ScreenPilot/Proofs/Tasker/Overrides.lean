import ScreenPilot.Proofs.Activity.Rewordings
import ScreenPilot.Proofs.Graph.Closed
import ScreenPilot.Proofs.Resource.Overlays
import ScreenPilot.Proofs.Run.Ports
import ScreenPilot.Proofs.Run.Returns
import ScreenPilot.Files.Tree
import ScreenPilot.Resource
import ScreenPilot.Tasker.Execute

/-!
# Overrides that are carried or loaded

A task may carry overrides, or these may be loaded into the resource before the task is
posted. Either way the task runs on the same graph, and it asks for that graph once; so the
run of the task that carries them is the run of the task without them, with the answer to
that one question read as overridden (`execute_carries`). Posting reads the overrides and
keeps them with the job, and is the same otherwise (`tryPost_carries`).

So whoever deals with the tasker and the resource, as long as he does the same either way
(`Surroundings.Impartial`), the task takes the same course (`carried_eq_loaded`).
-/

set_option autoImplicit false

namespace ScreenPilot

open Activity Engine

namespace Graph

/-- Only an object is the document of a graph. -/
theorem exists_entries {defaults : NodeDefaults} {document : Json} {graph : Graph}
    (defines : ofJson defaults document = .ok graph) :
    ∃ entries, document = .object entries := by
  cases document with
  | object entries => exact ⟨entries, rfl⟩
  | _ => exact nomatch defines

end Graph

/-! ## Loading -/

namespace Resource

/-- In the one world the overrides have been loaded into the resource of the other one. -/
structure Preloaded {ω : Type} (overrides : Graph) (world world' : Resource × ω) : Prop where
  resource : world.1 = world'.1.overlaid overrides
  loaded : world'.1.loaded = true
  rest : world.2 = world'.2

end Resource

/-! ## Taskers whose jobs carry overrides -/

/-- The job without its overrides. -/
def TaskJob.bare (job : TaskJob) : TaskJob := { job with overrides := .empty }

namespace Runner

variable {α β : Type}

/-- The runner with other jobs in place of its own. -/
def map (change : α → β) (runner : Runner α) : Runner β where
  lastId := runner.lastId
  queue := runner.queue.map (Prod.map id change)
  current := runner.current.map (Prod.map id change)
  statuses := runner.statuses
  closed := runner.closed

theorem map_post (change : α → β) (job : α) (runner : Runner α) :
    ((runner.post job).2).map change = ((runner.map change).post (change job)).2 := by
  simp only [post, map, List.map_append]
  rfl

end Runner

namespace Tasker

/-- The tasker whose jobs carry no overrides. -/
def unburdened (tasker : Tasker) : Tasker :=
  { tasker with runner := tasker.runner.map TaskJob.bare }

/-- Two taskers to which the resource is bound differ at most in what overrides their jobs
carry. -/
structure Alike (resource : Handle) (defaults : NodeDefaults) (tasker tasker' : Tasker) :
    Prop where
  same : tasker.unburdened = tasker'.unburdened
  bound : tasker'.resource = some resource
  defaults : tasker'.defaults = defaults

namespace Alike

variable {resource : Handle} {defaults : NodeDefaults} {tasker tasker' : Tasker}

theorem part {α : Type} (alike : Alike resource defaults tasker tasker') {view : Tasker → α}
    (unburdened : ∀ tasker, view tasker.unburdened = view tasker) : view tasker = view tasker' := by
  rw [← unburdened tasker, alike.same, unburdened]

theorem bound_both (alike : Alike resource defaults tasker tasker') :
    tasker.resource = some resource :=
  (alike.part fun _ => rfl).trans alike.bound

theorem engine (alike : Alike resource defaults tasker tasker') :
    tasker.engine = tasker'.engine :=
  alike.part fun _ => rfl

/-- A change that leaves the runner alone, and what is bound. -/
theorem change (alike : Alike resource defaults tasker tasker') (change : Tasker → Tasker)
    (unburdened : ∀ tasker, (change tasker).unburdened = change tasker.unburdened)
    (bound : (change tasker').resource = tasker'.resource)
    (keeps : (change tasker').defaults = tasker'.defaults) :
    Alike resource defaults (change tasker) (change tasker') where
  same := by rw [unburdened, alike.same, unburdened]
  bound := bound.trans alike.bound
  defaults := keeps.trans alike.defaults

/-- An activity of the engine finds the same engine. -/
theorem withEngine {α : Type} {rewording : Rewording outside outside} {activity : Acting α}
    (rewords : activity.Rewords rewording Eq Eq activity) :
    (Tasker.withEngine activity).Rewords rewording (Alike resource defaults) Eq
      (Tasker.withEngine activity) := by
  refine rewords.within (fun _ _ alike => alike.engine) ?_
  rintro engine _ tasker tasker' rfl alike
  exact alike.change (fun tasker => { tasker with engine }) (fun _ => rfl) rfl rfl

/-- What is read of both taskers, but for the overrides of their jobs. -/
theorem reads {α : Type} {rewording : Rewording outside outside} {part : Tasker → α}
    (unburdened : ∀ tasker, part tasker.unburdened = part tasker) :
    (Activity.reads part : Tasking α).Rewords rewording (Alike resource defaults) Eq
      (Activity.reads part) :=
  .step (fun _ _ alike => alike) fun _ _ alike => .done (alike.part unburdened)

end Alike

end Tasker

/-! ## Posting -/

/-- The graph of the resource is read as overridden. -/
def overlay (resource : Handle) (overrides : Graph) : Rewording outside outside where
  put question := question
  back question answer :=
    match question, answer with
    | .graph resource', graph =>
      if resource' = resource then Graph.merged graph overrides else graph
    | _, answer => answer

theorem overlay_back {resource : Handle} {overrides : Graph} {question : Question}
    (other : question ≠ .graph resource) (answer : Answer question) :
    (overlay resource overrides).back question answer = answer := by
  cases question with
  | graph resource' =>
    have differs : resource' ≠ resource := fun same => other (congrArg Question.graph same)
    exact if_neg differs
  | _ => rfl

/-- What a task asks for has every property that runs have. -/
theorem KeptByPorts.runTask {kept : (α : Type) → Acting α → Prop} (has : KeptByPorts kept)
    (context : RunContext) (job : TaskJob) : kept RunResult (Tasker.runTask context job) := by
  unfold Tasker.runTask
  split
  · exact has.map Prod.snd (has.run context .empty job.entry)
  · exact has.recognizeOnce context job.entry
  · exact has.actOnce context job.entry _
  · exact has.pure _

/-- A run never asks for the graph of the resource. -/
theorem kept_overlay (resource : Handle) (overrides : Graph) :
    KeptByPorts fun _ activity => activity.Rewords (overlay resource overrides) Eq Eq activity where
  done _ := .done rfl
  bind := .after
  reads _ := .same fun _ => .done rfl
  count _ := .same fun _ => .done rfl
  step _ _ := .same fun _ => .done rfl
  now := .ask fun _ => .done rfl
  rest _ _ := .ask fun _ => .done rfl
  frame _ := .ask fun _ => .done rfl
  send _ _ := .ask fun _ => .done rfl
  recognitionPlugIn _ _ := .ask fun _ => .done rfl
  actionPlugIn _ _ := .ask fun _ => .done rfl
  analyze _ _ _ := .ask fun _ => .done rfl
  perform _ _ _ _ _ := .ask fun _ => .done rfl
  recognize _ _ _ := .ask fun _ => .done rfl
  act _ _ _ := .ask fun _ => .done rfl
  awaitStill _ _ _ := .ask fun _ => .done rfl

namespace Tasker

variable {resource : Handle} {defaults : NodeDefaults} {overrides : Graph} {document : Json}

/-- An activity of a tasker, and the same one where the overrides are carried by jobs instead
of loaded. -/
abbrev Carries {α : Type} (resource : Handle) (defaults : NodeDefaults) (overrides : Graph)
    (related : α → α → Prop) (activity activity' : Tasking α) : Prop :=
  activity.Rewords (overlay resource overrides) (Alike resource defaults) related activity'

theorem checkReady_carries : Carries resource defaults overrides Eq checkReady checkReady := by
  refine .after (Alike.reads fun _ => rfl) fun bound => ?_
  cases bound with
  | none => exact .pure rfl
  | some bound =>
    refine .after (.ask fun _ => .done rfl) fun isLoaded => ?_
    split
    · exact .pure rfl
    · refine .after (Alike.reads fun _ => rfl) fun controller => ?_
      cases controller with
      | none => exact .pure rfl
      | some controller =>
        refine .after (.ask fun _ => .done rfl) fun isConnected => ?_
        split <;> exact .pure rfl

/-- A task is accepted with overrides if it is accepted without. -/
theorem accept_unburdened (entry : String) (kind : TaskKind) (overrides : Graph)
    (now : Timestamp) (tasker : Tasker) :
    (tasker.accept entry kind overrides now).1 =
        (tasker.unburdened.accept entry kind .empty now).1 ∧
      (tasker.accept entry kind overrides now).2.unburdened =
        (tasker.unburdened.accept entry kind .empty now).2 := by
  cases stopping : tasker.stopping with
  | true =>
    have stopping' : tasker.unburdened.stopping = true := stopping
    rw [accept, accept, if_pos stopping, if_pos stopping']
    exact ⟨rfl, rfl⟩
  | false =>
    have going : ¬ tasker.stopping = true := by simp [stopping]
    have going' : ¬ tasker.unburdened.stopping = true := going
    rw [accept, accept, if_neg going, if_neg going']
    refine ⟨rfl, ?_⟩
    simp only [enqueue, unburdened, Runner.map_post]
    rfl

theorem accept_binding (entry : String) (kind : TaskKind) (overrides : Graph) (now : Timestamp)
    (tasker : Tasker) :
    (tasker.accept entry kind overrides now).2.resource = tasker.resource ∧
      (tasker.accept entry kind overrides now).2.defaults = tasker.defaults := by
  unfold accept
  split <;> exact ⟨rfl, rfl⟩

/-- The job of a task carries the overrides with which the task is accepted. -/
theorem accept_carries (entry : String) (kind : TaskKind) (now : Timestamp) :
    Carries resource defaults overrides Eq
      (Activity.transact (accept entry kind .empty now))
      (Activity.transact (accept entry kind overrides now)) := by
  have accepts : ∀ tasker tasker', Alike resource defaults tasker tasker' →
      (tasker.accept entry kind .empty now).1 = (tasker'.accept entry kind overrides now).1 ∧
      (tasker.accept entry kind .empty now).2.unburdened =
        (tasker'.accept entry kind overrides now).2.unburdened := by
    intro tasker tasker' alike
    obtain ⟨outcome, after⟩ := accept_unburdened entry kind .empty now tasker
    obtain ⟨outcome', after'⟩ := accept_unburdened entry kind overrides now tasker'
    rw [alike.same] at outcome after
    exact ⟨outcome.trans outcome'.symm, after.trans after'.symm⟩
  refine .step (fun tasker tasker' alike => ?_) fun tasker tasker' alike =>
    .done (accepts _ _ alike).1
  have binding := accept_binding entry kind overrides now tasker'
  exact ⟨(accepts _ _ alike).2, binding.1.trans alike.bound, binding.2.trans alike.defaults⟩

/-- The overrides of a document that defines a graph can be read. -/
theorem readOverrides_eq (defines : Graph.ofJson defaults document = .ok overrides) :
    readOverrides defaults document = .ok overrides := by
  obtain ⟨entries, rfl⟩ := Graph.exists_entries defines
  simp only [readOverrides, defines]

/-- **Posting a task with overrides is posting it without**, but for what its job carries. -/
theorem tryPost_carries (entry : String) (kind : TaskKind)
    (defines : Graph.ofJson defaults document = .ok overrides) :
    Carries resource defaults overrides Eq (tryPost entry .null kind)
      (tryPost entry document kind) := by
  have reads := readOverrides_eq defines
  refine .after checkReady_carries fun ready => ?_
  cases ready with
  | error error => exact .pure rfl
  | ok ready =>
    have knows : Carries resource defaults overrides
        (fun found found' => found = defaults ∧ found' = defaults)
        (Activity.reads Tasker.defaults) (Activity.reads Tasker.defaults) :=
      .step (fun _ _ alike => alike) fun _ _ alike =>
        .done ⟨(alike.part fun _ => rfl).trans alike.defaults, alike.defaults⟩
    refine knows.bind ?_
    rintro _ _ ⟨rfl, rfl⟩
    rw [reads]
    exact .after (Alike.withEngine (.ask fun _ => .done rfl)) fun now =>
      accept_carries entry kind now

theorem checkReady_steps : checkReady.Steps Eq := by
  refine .bind (.reads fun _ => rfl) fun bound => ?_
  cases bound with
  | none => exact .pure _
  | some bound =>
    refine .bind (fun _ => .pure _) fun isLoaded => ?_
    split
    · exact .pure _
    · refine .bind (.reads fun _ => rfl) fun controller => ?_
      cases controller with
      | none => exact .pure _
      | some controller =>
        refine .bind (fun _ => .pure _) fun isConnected => ?_
        split <;> exact .pure _

/-- The job of an accepted task is the last one in the queue. -/
theorem getLast?_accept {entry : String} {kind : TaskKind} {now : Timestamp} {tasker : Tasker}
    {task : TaskId} (accepted : (tasker.accept entry kind overrides now).1 = .ok task) :
    ∃ id, (tasker.accept entry kind overrides now).2.runner.queue.getLast? =
      some (id, ⟨task, entry, kind, overrides⟩) := by
  unfold accept at accepted ⊢
  split at accepted
  · exact nomatch accepted
  · rename_i going
    rw [if_neg going]
    cases accepted
    exact ⟨_, List.getLast?_concat⟩

/-- When others leave the defaults alone, the job of a task that is accepted carries the
overrides that were posted with it. -/
theorem tryPost_ensures {setting : Setting Tasker} (entry : String) (kind : TaskKind)
    (others : ∀ before after, setting.others before after → before.defaults = defaults →
      after.defaults = defaults)
    (read : readOverrides defaults document = .ok overrides) {tasker : Tasker}
    (begins : tasker.defaults = defaults) :
    (tryPost entry document kind).Ensures setting tasker fun outcome after =>
      ∀ task, outcome = .ok task →
        ∃ id, after.runner.queue.getLast? = some (id, ⟨task, entry, kind, overrides⟩) := by
  have keeps : checkReady.Ensures setting tasker fun _ after => after.defaults = defaults := by
    refine checkReady_steps.ensures (·.defaults = defaults) others ?_ begins
    rintro before _ rfl - held
    exact held
  refine ensures_bind.mpr (keeps.imp fun ready middle held => ?_)
  cases ready with
  | error error => exact ensures_pure.mpr nofun
  | ok ready =>
    refine ensures_bind.mpr (ensures_reads.mpr fun found moved _ => ?_)
    rw [others _ _ moved held, read]
    exact Ensures.after fun now _ => ensures_transact.mpr fun found _ _ _ => getLast?_accept

/-! ## Carrying out -/

theorem runTask_carries (context : RunContext) (job : TaskJob) :
    Carries resource defaults overrides Eq (withEngine (runTask context job.bare))
      (withEngine (runTask context job)) := by
  apply Alike.withEngine
  exact (kept_overlay resource overrides).runTask context job

/-- The graph that a task runs on is the same. -/
theorem startTask_carries (patience : Nat) {job : TaskJob} (carries : job.overrides = overrides)
    (controller : Handle) :
    Carries resource defaults overrides Eq (startTask patience job.bare controller resource)
      (startTask patience job controller resource) := by
  have kept := kept_overlay resource overrides
  have merged : ∀ graph : Graph, (graph.merged overrides).merged .empty =
      graph.merged job.overrides := fun graph => by
    rw [Graph.merged_empty, carries]
  refine .after (Alike.withEngine ?_) fun _ => .after (Alike.withEngine ?_) fun _ => ?_
  · exact .after (.ask fun _ => .done rfl) fun _ => kept.modify _
  · exact kept.modify _
  refine .after (Alike.reads fun _ => rfl) fun recognizer => ?_
  refine .after (Alike.reads fun _ => rfl) fun actuator => ?_
  have graph : Carries resource defaults overrides
      (fun graph graph' : Graph =>
        graph.merged job.bare.overrides = graph'.merged job.overrides)
      (.ask (Question.graph resource) .done) (.ask (Question.graph resource) .done) := by
    refine .ask fun graph => .done ?_
    simp only [overlay]
    exact merged graph
  refine graph.bind fun graph graph' same => ?_
  refine .after (Alike.reads fun _ => rfl) fun settings => ?_
  dsimp only
  rw [same]
  exact runTask_carries _ job

theorem finishTask_carries (job : TaskJob) (status : TaskStatus) :
    Carries resource defaults overrides Eq (withEngine (finishTask job.bare status))
      (withEngine (finishTask job status)) := by
  have kept := kept_overlay resource overrides
  refine Alike.withEngine (.after ?_ fun _ => kept.modify _)
  exact .after (.ask fun _ => .done rfl) fun _ => kept.modify _

/-- **A task that carries overrides is carried out as without them where they are loaded.** -/
theorem execute_carries (patience : Nat) {job : TaskJob} (carries : job.overrides = overrides) :
    Carries resource defaults overrides Eq (execute patience job.bare) (execute patience job) := by
  unfold execute
  show Carries _ _ _ _ (if job.kind = .marker then _ else _) _
  split
  · refine .after (.step (fun _ _ alike => ?_) fun _ _ _ => .done rfl) fun _ => .pure rfl
    exact alike.change (fun tasker => { tasker with stopping := false }) (fun _ => rfl) rfl rfl
  · refine .after (Alike.reads fun _ => rfl) fun stopped => ?_
    split
    · exact .after (finishTask_carries job _) fun _ => .pure rfl
    · refine .after (Alike.reads fun _ => rfl) fun controller => ?_
      have binds : Carries resource defaults overrides
          (fun found found' => found = some resource ∧ found' = some resource)
          (Activity.reads Tasker.resource) (Activity.reads Tasker.resource) :=
        .step (fun _ _ alike => alike) fun _ _ alike => .done ⟨alike.bound_both, alike.bound⟩
      refine binds.bind ?_
      rintro _ _ ⟨rfl, rfl⟩
      cases controller with
      | none => exact .after (finishTask_carries job _) fun _ => .pure rfl
      | some controller =>
        refine .after (startTask_carries patience carries controller) fun result => ?_
        cases result with
        | unfinished => exact .pure rfl
        | crashed | ended => exact .after (finishTask_carries job _) fun _ => .pure rfl

end Tasker

/-! ## The same course -/

/-- The outside gives the graph of a resource to who asks for it. Whether overrides have been
loaded into that graph or are carried by jobs, it does the same otherwise; and nobody binds
another resource or changes the defaults. -/
structure Surroundings.Impartial {ω : Type}
    (surroundings : Surroundings outside Tasker (Resource × ω)) (resource : Handle)
    (defaults : NodeDefaults) (overrides : Graph) : Prop where
  keeps : ∀ before, (surroundings.meanwhile before).1.defaults = before.1.defaults
  gives : ∀ before, surroundings.answer (.graph resource) before = (before.2.1.graph, before.2)
  meanwhile : ∀ before before', Tasker.Alike resource defaults before.1 before'.1 →
    Resource.Preloaded overrides before.2 before'.2 →
      Tasker.Alike resource defaults (surroundings.meanwhile before).1
        (surroundings.meanwhile before').1 ∧
      Resource.Preloaded overrides (surroundings.meanwhile before).2
        (surroundings.meanwhile before').2
  answer : ∀ question, question ≠ .graph resource → ∀ before before',
    Tasker.Alike resource defaults before.1 before'.1 →
    Resource.Preloaded overrides before.2 before'.2 →
      (surroundings.answer question before).1 = (surroundings.answer question before').1 ∧
      Resource.Preloaded overrides (surroundings.answer question before).2
        (surroundings.answer question before').2

namespace Surroundings.Impartial

variable {ω : Type} {surroundings : Surroundings outside Tasker (Resource × ω)}
  {resource : Handle} {defaults : NodeDefaults} {overrides : Graph}

theorem parallel (impartial : surroundings.Impartial resource defaults overrides) :
    surroundings.Parallel surroundings (overlay resource overrides)
      (Tasker.Alike resource defaults) (Resource.Preloaded overrides) where
  meanwhile := impartial.meanwhile
  answer question before before' alike loaded := by
    by_cases asked : question = .graph resource
    · subst asked
      simp only [overlay, impartial.gives]
      refine ⟨?_, loaded⟩
      show before.2.1.graph = _
      rw [loaded.resource]
      rfl
    · obtain ⟨same, after⟩ := impartial.answer question asked before before' alike loaded
      exact ⟨same.trans (overlay_back asked _).symm, after⟩

end Surroundings.Impartial

namespace Tasker

open Surroundings

/-- Two courses come to the same value in situations that are alike, and the same was asked in
both. -/
structure SameCourse {ω α : Type} (resource : Handle) (defaults : NodeDefaults)
    (overrides : Graph) (course course' : α × Tasker × (Resource × ω) × List Question) :
    Prop where
  value : course.1 = course'.1
  tasker : Alike resource defaults course.2.1 course'.2.1
  world : Resource.Preloaded overrides course.2.2.1 course'.2.2.1
  asked : course.2.2.2 = course'.2.2.2

variable {ω : Type} {surroundings : Surroundings outside Tasker (Resource × ω)}
  {resource : Handle} {defaults : NodeDefaults} {overrides : Graph}

theorem Carries.sameCourse {α : Type} {activity activity' : Tasking α}
    (carries : Carries resource defaults overrides Eq activity activity')
    (impartial : surroundings.Impartial resource defaults overrides) {tasker tasker' : Tasker}
    {world world' : Resource × ω} (alike : Alike resource defaults tasker tasker')
    (loaded : Resource.Preloaded overrides world world') :
    SameCourse resource defaults overrides
      (surroundings.logging.carry activity (tasker, world, []))
      (surroundings.logging.carry activity' (tasker', world', [])) := by
  obtain ⟨value, after, worlds, asked⟩ := carries.carry_logging impartial.parallel alike loaded
  refine ⟨value, after, worlds, ?_⟩
  rw [asked]
  exact (List.map_id _).symm

/-- The job of a task that is accepted is the last one in the queue. -/
theorem carry_tryPost (impartial : surroundings.Impartial resource defaults overrides)
    {document : Json} {carried : Graph} (read : readOverrides defaults document = .ok carried)
    {tasker : Tasker} (same : tasker.defaults = defaults) (world : Resource × ω)
    (entry : String) (kind : TaskKind) :
    let course := surroundings.logging.carry (tryPost entry document kind) (tasker, world, [])
    ∀ task, course.1 = .ok task →
      ∃ id, course.2.1.runner.queue.getLast? = some (id, ⟨task, entry, kind, carried⟩) := by
  have others : ∀ before after, surroundings.logging.setting.others before after →
      before.defaults = defaults → after.defaults = defaults := by
    rintro before after ⟨⟨world, asked⟩, _, moved⟩ held
    have found : (surroundings.meanwhile (before, world)).1 = after := congrArg Prod.fst moved
    rw [← found, impartial.keeps (before, world)]
    exact held
  have ensures := tryPost_ensures entry kind others read same
  exact ensures _ _ (surroundings.logging.ends_carry _ (tasker, world, []))

/-- **To post a task with overrides is to load them first.** Let the resource of a tasker be
loaded, and a document define overrides, with the same defaults for both. Loaded into the
resource, the document changes nothing but the graph. To post a task then comes to the same
with null for overrides as it comes to with the document where it is not loaded, and the jobs
differ in what they carry alone. In whatever situations that differ in no more than this the
jobs are carried out, this comes to the same: to the same outcome, by the same calls of the
outside, and with the same records and notifications. And unless somebody else replaces the
graph of the resource, nothing that is done with the tasker does, so that this is what other
tasks still run on. -/
theorem carried_eq_loaded {ω' : Type} {loader : Surroundings Resource.loading Resource ω'}
    {held : Resource} {document : Json}
    (quiet : ∀ before, loader.meanwhile before = before) (valid : held.loaded = true)
    (defines : Graph.ofJson held.defaults document = .ok overrides)
    (impartial : surroundings.Impartial resource held.defaults overrides) {tasker : Tasker}
    (bound : tasker.resource = some resource) (same : tasker.defaults = held.defaults)
    (world : ω) (world' : ω') :
    ∃ loaded : Resource,
      loader.carry (Resource.loadJson document) (held, world') = (.ok (), loaded, world') ∧
      (∀ entry kind,
        let course := surroundings.logging.carry (tryPost entry .null kind)
          (tasker, (loaded, world), [])
        let course' := surroundings.logging.carry (tryPost entry document kind)
          (tasker, (held, world), [])
        SameCourse resource held.defaults overrides course course' ∧
        ∀ task, course.1 = .ok task → ∃ id job, job.overrides = overrides ∧
          (job.task, job.entry, job.kind) = (task, entry, kind) ∧
          course.2.1.runner.queue.getLast? = some (id, job.bare) ∧
          course'.2.1.runner.queue.getLast? = some (id, job)) ∧
      (∀ patience job, job.overrides = overrides → ∀ tasker tasker' world world',
        Alike resource held.defaults tasker tasker' →
        Resource.Preloaded overrides world world' →
        SameCourse resource held.defaults overrides
          (surroundings.logging.carry (execute patience job.bare) (tasker, world, []))
          (surroundings.logging.carry (execute patience job) (tasker', world', []))) ∧
      ((∀ before, (surroundings.meanwhile before).2.1.graph = before.2.1.graph) →
        (∀ question before,
          (surroundings.answer question before).2.1.graph = before.2.1.graph) →
        ∀ {α : Type} (activity : Tasking α),
          (surroundings.carry activity (tasker, held, world)).2.2.1.graph = held.graph) := by
  have preloaded : Resource.Preloaded overrides (held.overlaid overrides, world) (held, world) :=
    ⟨rfl, valid, rfl⟩
  have alike : Alike resource held.defaults tasker tasker := ⟨rfl, bound, same⟩
  refine ⟨held.overlaid overrides, Resource.carry_loadJson quiet defines world', ?_, ?_, ?_⟩
  · intro entry kind course course'
    have courses : SameCourse resource held.defaults overrides course course' :=
      (tryPost_carries entry kind defines).sameCourse impartial alike preloaded
    refine ⟨courses, fun task accepted => ?_⟩
    have read : readOverrides held.defaults document = .ok overrides :=
      readOverrides_eq defines
    have none : readOverrides held.defaults .null = .ok .empty := rfl
    obtain ⟨id, last⟩ := carry_tryPost impartial none same (held.overlaid overrides, world) entry
      kind task accepted
    obtain ⟨id', last'⟩ := carry_tryPost impartial read same (held, world) entry kind task
      (courses.value.symm.trans accepted)
    have ids : course.2.1.runner.queue.getLast?.map Prod.fst =
        course'.2.1.runner.queue.getLast?.map Prod.fst := by
      have queues := congrArg (fun tasker => tasker.runner.queue.getLast?.map Prod.fst)
        courses.tasker.same
      simp only [unburdened, Runner.map, List.getLast?_map, Option.map_map] at queues
      exact queues
    rw [last, last'] at ids
    obtain rfl : id = id' := Option.some.inj ids
    exact ⟨id, ⟨task, entry, kind, overrides⟩, rfl, rfl, last, last'⟩
  · intro patience job carries tasker tasker' world world' alike preloaded
    exact (execute_carries patience carries).sameCourse impartial alike preloaded
  · intro meanwhile answer α activity
    exact Surroundings.carry_keeps (fun world : Resource × ω => world.1.graph) meanwhile answer
      activity _

/-! ### A document with one node -/

/-- One resource says what it holds. About all else, every node is recognized and every action
succeeds, in no time. -/
def lending (resource : Handle) : Surroundings outside Tasker (Resource × Unit) where
  meanwhile := id
  answer question before := (match question with
    | .isLoaded _ => before.2.1.loaded
    | .graph resource' => if resource' = resource then before.2.1.graph else .empty
    | .recognitionPlugIn _ name => before.2.1.recognitions[name]?
    | .actionPlugIn _ name => before.2.1.actions[name]?
    | question => (RunContext.standstill.answer question (before.1.engine, ())).1, before.2)

theorem lending_impartial (resource : Handle) (defaults : NodeDefaults) (overrides : Graph) :
    (lending resource).Impartial resource defaults overrides where
  keeps _ := rfl
  gives _ := congrArg (·, _) (if_pos rfl)
  meanwhile _ _ alike loaded := ⟨alike, loaded⟩
  answer question other before before' alike loaded := by
    refine ⟨?_, loaded⟩
    cases question with
    | isLoaded resource' =>
      show before.2.1.loaded = before'.2.1.loaded
      rw [loaded.resource, loaded.loaded]
      rfl
    | graph resource' =>
      have differs : resource' ≠ resource := fun same => other (congrArg Question.graph same)
      exact (if_neg differs).trans (if_neg differs).symm
    | recognitionPlugIn resource' name =>
      show before.2.1.recognitions[name]? = before'.2.1.recognitions[name]?
      rw [loaded.resource]
      rfl
    | actionPlugIn resource' name =>
      show before.2.1.actions[name]? = before'.2.1.actions[name]?
      rw [loaded.resource]
      rfl
    | _ => rfl

/-- Nothing is asked when a document is loaded. -/
def unasked : Surroundings Resource.loading Resource Unit where
  meanwhile := id
  answer question _ := ((match question with
    | .file question => (FileTree.empty.answer question).1
    | .nextPath _ => ()), ())

/-- A document with one node. -/
def oneNode : Json := .object [("A", .object [])]

theorem ofJson_oneNode (defaults : NodeDefaults) :
    Graph.ofJson defaults oneNode = .ok (Graph.empty.insert (.ofDefaults "A" defaults)) := by
  have plain : Graph.isRemark "A" = false := by simp [Graph.isRemark]
  have read : Node.ofJson "A" (.object []) defaults = .ok (.ofDefaults "A" defaults) := rfl
  simp [oneNode, Graph.ofJson, Graph.addEntry, plain, read, Except.map]

/-- A resource in which an empty graph was put in place. -/
def vacant : Resource := { Resource.new default with loaded := true }

/-- A tasker to which the resource is bound. -/
def bound : Tasker := ((new default default).bindResource 0).bindController 0

/-- A task is accepted along with the node it names, or after this was loaded, and what the
resource holds is the same after it was carried out. -/
theorem oneNode_carried : vacant.loaded = true ∧ bound.resource = some 0 ∧
    ∃ loaded : Resource,
      unasked.carry (Resource.loadJson oneNode) (vacant, ()) = (.ok (), loaded, ()) ∧
      ((lending 0).logging.carry (tryPost "A" .null .pipeline) (bound, (loaded, ()), [])).1 =
        .ok ⟨200000001⟩ ∧
      ((lending 0).logging.carry (tryPost "A" oneNode .pipeline) (bound, (vacant, ()), [])).1 =
        .ok ⟨200000001⟩ ∧
      ∀ patience, ((lending 0).carry
        (tryPost "A" oneNode .pipeline >>= fun _ => serve patience)
        (bound, vacant, ())).2.2.1.graph = .empty := by
  have quiet : ∀ before, unasked.meanwhile before = before := fun _ => rfl
  have defines := ofJson_oneNode vacant.defaults
  obtain ⟨loaded, loads, posts, -, stays⟩ := carried_eq_loaded quiet rfl defines
    (lending_impartial 0 _ _) (rfl : bound.resource = some 0) rfl () ()
  have isLoaded : loaded = vacant.overlaid (Graph.empty.insert (.ofDefaults "A" default)) :=
    congrArg (fun course => course.2.1)
      (loads.symm.trans (Resource.carry_loadJson quiet defines ()))
  have accepted : ((lending 0).logging.carry (tryPost "A" .null .pipeline)
      (bound, (loaded, ()), [])).1 = .ok ⟨200000001⟩ := by
    rw [isLoaded]
    rfl
  refine ⟨rfl, rfl, loaded, loads, accepted, ?_, fun patience => ?_⟩
  · exact (posts "A" .pipeline).1.value.symm.trans accepted
  · exact stays (fun _ => rfl) (fun _ _ => rfl) _

end Tasker

end ScreenPilot
