import ScreenPilot.Proofs.Activity.Mirrors
import ScreenPilot.Proofs.Resource.Moves
import ScreenPilot.Proofs.Run.Ports
import ScreenPilot.Proofs.Tasker.Conclusion
import ScreenPilot.Proofs.Tasker.Overrides

/-!
# Tasks that run on a graph of their own

A task takes the graph of its resource once, when it starts, and never asks for it again, nor
whether there is one (`execute_pins`). So loads of the resource that move from then on are not
seen by it: it takes the same course as without them, step by step and call by call
(`loads_unseen`). A task that starts later takes the graph that it finds.

Who deals with the tasker may load the resource at any point after the graph was taken, between
any two steps of the task or within any call, but does the same otherwise
(`Surroundings.AddsLoads`). And what is done and answered does not depend on what was loaded
(`Surroundings.Blind`); else it would not be the task that saw the loads.
-/

set_option autoImplicit false

namespace ScreenPilot

open Activity Engine Resource

/-! ## The graph is taken once -/

/-- It asks for the graph of the resource. -/
def Engine.Question.takes (resource : Handle) : Question → Bool
  | .graph other => other = resource
  | _ => false

/-- It asks for the graph of the resource, or whether there is one. -/
def Engine.Question.looks (resource : Handle) : Question → Bool
  | .graph other | .isLoaded other => other = resource
  | _ => false

theorem Engine.Question.takes_of_not_looks {resource : Handle} {question : Question}
    (blind : question.looks resource = false) : question.takes resource = false := by
  cases question with
  | graph other => exact blind
  | _ => rfl

/-- The graph of the resource is asked for when it was not yet taken, and then it is. Whether
there is one is not asked. -/
inductive Pins (resource : Handle) {σ : Type} : Bool → Event outside σ → Bool → Prop where
  | step (taken : Bool) (before after : σ) : Pins resource taken (.step before after) taken
  | takes (graph : Graph) : Pins resource false (.call (Question.graph resource) (some graph)) true
  | asks (taken : Bool) {question : outside.Question} (answer : outside.Answer question)
      (blind : Question.looks resource question = false) :
      Pins resource taken (.call question (some answer)) taken

theorem Pins.call_cases {resource : Handle} {σ : Type} {taken taken' : Bool}
    {question : outside.Question} {answer : outside.Answer question}
    (goes : Pins resource taken (.call question (some answer) : Event outside σ) taken') :
    taken = false ∧ taken' = true ∧ question = Question.graph resource ∨
      taken' = taken ∧ Question.looks resource question = false := by
  cases goes with
  | takes graph => exact .inl ⟨rfl, rfl, rfl⟩
  | asks _ _ blind => exact .inr ⟨rfl, blind⟩

/-- The graph is not asked for, be it taken or not. -/
abbrev Forgoes {σ α : Type} (resource : Handle) (taken : Bool) (activity : Activity outside σ α) :
    Prop :=
  activity.Tracks (Pins resource) (fun phase _ => phase = taken) taken

namespace Forgoes

variable {resource : Handle} {taken : Bool} {σ α β : Type}

theorem bind {first : Activity outside σ α} {next : α → Activity outside σ β}
    {last : Bool → β → Prop} (forgoes : Forgoes resource taken first)
    (after : ∀ value, (next value).Tracks (Pins resource) last taken) :
    (first >>= next).Tracks (Pins resource) last taken := by
  apply Tracks.bind forgoes
  rintro value phase rfl
  exact after value

theorem step (change : σ → σ) (view : σ → α) :
    Forgoes resource taken (.step change fun state => .done (view state) : Activity outside σ α) := by
  intro found
  exact ⟨taken, .step taken _ _, rfl⟩

/-- A run asks for no graph. -/
theorem kept (resource : Handle) (taken : Bool) :
    KeptByPorts fun _ activity => Forgoes resource taken activity where
  done _ := rfl
  bind := bind
  reads _ := step _ _
  count _ := step _ _
  step := step
  now answer := ⟨taken, .asks taken answer rfl, rfl⟩
  rest _ _ answer := ⟨taken, .asks taken answer rfl, rfl⟩
  frame _ answer := ⟨taken, .asks taken answer rfl, rfl⟩
  send _ _ answer := ⟨taken, .asks taken answer rfl, rfl⟩
  recognitionPlugIn _ _ answer := ⟨taken, .asks taken answer rfl, rfl⟩
  actionPlugIn _ _ answer := ⟨taken, .asks taken answer rfl, rfl⟩
  analyze _ _ _ answer := ⟨taken, .asks taken answer rfl, rfl⟩
  perform _ _ _ _ _ answer := ⟨taken, .asks taken answer rfl, rfl⟩
  recognize _ _ _ answer := ⟨taken, .asks taken answer rfl, rfl⟩
  act _ _ _ answer := ⟨taken, .asks taken answer rfl, rfl⟩
  awaitStill _ _ _ answer := ⟨taken, .asks taken answer rfl, rfl⟩

theorem withEngine {activity : Acting α} (forgoes : Forgoes resource taken activity) :
    Forgoes resource taken (Tasker.withEngine activity) := by
  apply forgoes.within
  · intro phase whole after phase' goes
    cases goes
    exact .step phase _ _
  · intro phase question answer phase' goes
    cases goes with
    | takes graph => exact .takes graph
    | asks _ _ blind => exact .asks phase answer blind

/-- Where the graph is not asked for, it is not asked for too often. -/
theorem pins {activity : Activity outside σ α} (forgoes : Forgoes resource taken activity) :
    activity.Tracks (Pins resource) (fun _ _ => True) taken :=
  forgoes.imp fun _ _ _ => trivial

end Forgoes

namespace Tasker

variable {resource : Handle} {taken : Bool}

/-! ## Carrying out a task -/

theorem forgoes_setStatus (task : TaskId) (status : TaskStatus) :
    Forgoes resource taken (setStatus task status) := by
  intro date
  exact ⟨taken, .asks taken date rfl, (Forgoes.kept resource taken).modify _⟩

theorem forgoes_finishTask (job : TaskJob) (status : TaskStatus) :
    Forgoes resource taken (finishTask job status) := by
  apply (forgoes_setStatus job.task status).bind
  intro _
  exact (Forgoes.kept resource taken).modify _

theorem forgoes_conclude (job : TaskJob) (result : RunResult) :
    Forgoes resource taken (conclude job result) := by
  cases result with
  | unfinished => exact rfl
  | crashed | ended =>
    apply (forgoes_finishTask job _).withEngine.bind
    intro _
    exact rfl

/-! ## The start of a task -/

/-- A task is announced, and its ports are looked up. -/
def announce (job : TaskJob) : Tasking (Option Handle × Option Handle) := do
  withEngine (setStatus job.task .running)
  withEngine (emit (.ofTask ⟨.starting, job.task, job.entry⟩))
  return (← Activity.reads Tasker.recognizer, ← Activity.reads Tasker.actuator)

/-- The run of a task on a graph. -/
def runOn (patience : Nat) (job : TaskJob) (controller resource : Handle)
    (ports : Option Handle × Option Handle) (graph : Graph) : Tasking RunResult := do
  let poll := (← Activity.reads Tasker.settings).stopPollInterval
  let context : RunContext :=
    { graph
      signal := ⟨job.task, poll⟩
      controller
      recognizer := ports.1.elim (.stock resource) .replaced
      actuator := ports.2.elim (.stock controller resource) .replaced
      patience }
  withEngine (runTask context job)

/-- A task that starts takes the graph of its resource, and runs on it and its overrides. -/
theorem startTask_eq (patience : Nat) (job : TaskJob) (controller resource : Handle) :
    startTask patience job controller resource =
      announce job >>= fun ports => .ask (Question.graph resource) fun graph =>
        runOn patience job controller resource ports (Graph.merged graph job.overrides) := by
  rfl

theorem forgoes_announce (job : TaskJob) : Forgoes resource taken (announce job) := by
  have kept := Forgoes.kept resource taken
  apply (forgoes_setStatus job.task .running).withEngine.bind
  intro _
  apply (Forgoes.withEngine (kept.modify _)).bind
  intro _
  apply (Forgoes.step id Tasker.recognizer).bind
  intro recognizer
  exact Forgoes.step id _

theorem forgoes_runOn (patience : Nat) (job : TaskJob) (controller other : Handle)
    (ports : Option Handle × Option Handle) (graph : Graph) :
    Forgoes resource taken (runOn patience job controller other ports graph) := by
  apply (Forgoes.step id Tasker.settings).bind
  intro settings
  exact ((Forgoes.kept resource taken).runTask _ job).withEngine

theorem startTask_pins (patience : Nat) (job : TaskJob) (controller other : Handle) :
    (startTask patience job controller other).Tracks (Pins resource) (fun _ _ => True) false := by
  rw [startTask_eq]
  apply (forgoes_announce job).bind
  intro ports graph
  by_cases same : other = resource
  · subst same
    exact ⟨true, .takes graph, (forgoes_runOn _ _ _ _ _ _).pins⟩
  · have blind : Question.looks resource (.graph other) = false := decide_eq_false same
    exact ⟨false, .asks false graph blind, (forgoes_runOn _ _ _ _ _ _).pins⟩

/-- **A task that is carried out takes the graph once at most**, and does not look at it again. -/
theorem execute_pins (patience : Nat) (job : TaskJob) :
    (execute patience job).Tracks (Pins resource) (fun _ _ => True) false := by
  have concludes : ∀ taken result,
      (conclude job result).Tracks (Pins resource) (fun _ _ => True) taken :=
    fun taken result => (forgoes_conclude job result).pins
  by_cases isMarker : job.kind = .marker
  · unfold execute
    rw [if_pos isMarker]
    apply (Forgoes.step _ fun _ => ()).bind
    intro _
    exact trivial
  rw [execute_eq patience isMarker]
  apply (Forgoes.step id _).bind
  intro isStopped
  split
  · apply (forgoes_finishTask job .stopped).withEngine.bind
    intro _
    exact trivial
  apply (Forgoes.step id Tasker.controller).bind
  intro controller
  apply (Forgoes.step id Tasker.resource).bind
  intro bound
  split
  · apply (startTask_pins patience job _ _).bind
    intro result taken _
    exact concludes taken result
  · exact concludes false .crashed

end Tasker

/-! ## Loads beside a task -/

section Surroundings

variable {ω κ α : Type}

/-- The same has come of it, but for what loads change of the resource. -/
structure SameBut (came came' : α × Resource × ω) : Prop where
  value : came'.1 = came.1
  resource : came.2.1.Akin came'.2.1
  rest : came'.2.2 = came.2.2

/-- The same has come of it, and then loads of the resource have moved. -/
structure ThenLoads (sharing : Sharing) (came : α × Resource × ω)
    (came' : α × Sharing × κ × ω) : Prop where
  value : came'.1 = came.1
  leads : { sharing with resource := came.2.1 }.LeadsLoading came'.2.1
  rest : came'.2.2.2 = came.2.2

/-- What there is beside loads is what there is without them, but for the resource; and as long
as the graph was not taken, that is the same too. -/
structure Beside (taken : Bool) (world : Resource × ω) (world' : Bool × Sharing × κ × ω) :
    Prop where
  known : world'.1 = taken
  tame : world'.2.1.Tame
  resource : world.1.Akin world'.2.1.resource
  same : taken = false → world'.2.1.resource = world.1
  rest : world'.2.2.2 = world.2

/-- What has come of it beside loads. -/
theorem ThenLoads.beside {sharing : Sharing} {came between : α × Resource × ω}
    {came' : α × Sharing × κ × ω} (loads : ThenLoads sharing between came')
    (same : SameBut came between) (tame : sharing.Tame) :
    came'.1 = came.1 ∧ Beside true came.2 (true, came'.2) := by
  have tame : { sharing with resource := between.2.1 }.Tame := tame
  obtain ⟨akin, tame'⟩ := loads.leads.akin tame
  refine ⟨loads.value.trans same.value, rfl, tame', same.resource.trans akin, nofun, ?_⟩
  exact loads.rest.trans same.rest

/-- If it leaves the resource alone, loads alone have moved. -/
theorem ThenLoads.leads_of_same {sharing : Sharing} {came : α × Resource × ω}
    {came' : α × Sharing × κ × ω} (loads : ThenLoads sharing came came')
    (same : came.2.1 = sharing.resource) : sharing.LeadsLoading came'.2.1 :=
  (Sharing.leadsLoading_of_same same).trans loads.leads

namespace Surroundings

/-- However the resource is loaded, others do the same and the same is answered, unless one asks
for just that. -/
structure Blind (surroundings : Surroundings outside Tasker (Resource × ω)) (resource : Handle) :
    Prop where
  meanwhile : ∀ tasker held held' world, held.Akin held' →
    SameBut (surroundings.meanwhile (tasker, held, world))
      (surroundings.meanwhile (tasker, held', world))
  answer : ∀ question, Question.looks resource question = false →
    ∀ tasker held held' world, held.Akin held' →
      SameBut (surroundings.answer question (tasker, held, world))
        (surroundings.answer question (tasker, held', world))

/-- Others do what they do in the first surroundings and the same is answered, but before each
step and in each call the resource may be loaded. -/
structure AddsLoads (busy : Surroundings outside Tasker (Sharing × κ × ω))
    (quiet : Surroundings outside Tasker (Resource × ω)) : Prop where
  meanwhile : ∀ tasker sharing knows world,
    ThenLoads sharing (quiet.meanwhile (tasker, sharing.resource, world))
      (busy.meanwhile (tasker, sharing, knows, world))
  answer : ∀ question tasker sharing knows world,
    ThenLoads sharing (quiet.answer question (tasker, sharing.resource, world))
      (busy.answer question (tasker, sharing, knows, world))

/-- The surroundings with a resource that is shared by loads, none of which moves. -/
def shared (surroundings : Surroundings outside Tasker (Resource × ω)) :
    Surroundings outside Tasker (Sharing × κ × ω) where
  meanwhile before :=
    let (tasker, held, world) :=
      surroundings.meanwhile (before.1, before.2.1.resource, before.2.2.2)
    (tasker, { before.2.1 with resource := held }, before.2.2.1, world)
  answer question before :=
    let (answer, held, world) :=
      surroundings.answer question (before.1, before.2.1.resource, before.2.2.2)
    (answer, { before.2.1 with resource := held }, before.2.2.1, world)

/-- In the surroundings, and from when the graph of the resource was taken on, with loads. -/
abbrev loadedAfter (quiet : Surroundings outside Tasker (Resource × ω)) (resource : Handle)
    (busy : Surroundings outside Tasker (Sharing × κ × ω)) :
    Surroundings outside Tasker (Bool × Sharing × κ × ω) :=
  quiet.shared.upTo busy (Question.takes resource)

variable {quiet : Surroundings outside Tasker (Resource × ω)}
  {busy : Surroundings outside Tasker (Sharing × κ × ω)} {resource : Handle}

/-- **Loads that move once the graph was taken change nothing that a task is told.** -/
theorem mirrors_loadedAfter (blind : quiet.Blind resource) (adds : busy.AddsLoads quiet) :
    quiet.Mirrors (quiet.loadedAfter resource busy) (Pins resource) Beside where
  meanwhile := by
    rintro _ tasker ⟨held, _⟩ ⟨taken, sharing, knows, world⟩ ⟨rfl, tame, akin, same, rfl⟩
    cases taken with
    | false =>
      cases same rfl
      exact ⟨rfl, rfl, tame, .refl _, fun _ => rfl, rfl⟩
    | true =>
      exact (adds.meanwhile tasker sharing knows world).beside
        (blind.meanwhile tasker held sharing.resource world akin) tame
  step := by
    intro taken found after taken' world world' goes beside
    cases goes
    exact beside
  answer := by
    rintro _ question taken' tasker ⟨held, _⟩ ⟨taken, sharing, knows, world⟩ goes
      ⟨rfl, tame, akin, same, rfl⟩
    rcases goes.call_cases with ⟨rfl, rfl, rfl⟩ | ⟨rfl, notLooks⟩
    · cases same rfl
      exact ⟨rfl, decide_eq_true rfl, tame, .refl _, nofun, rfl⟩
    · cases taken' with
      | false =>
        cases same rfl
        exact ⟨rfl, Question.takes_of_not_looks notLooks, tame, .refl _, fun _ => rfl, rfl⟩
      | true =>
        exact (adds.answer question tasker sharing knows world).beside
          (blind.answer question notLooks tasker held sharing.resource world akin) tame

/-- Where nobody changes the resource but by loads, all that becomes of it is what loads make
of it. -/
theorem leads_loadedAfter (adds : busy.AddsLoads quiet) (keeps : quiet.Keeps Prod.fst)
    (activity : Tasker.Tasking α) (before : Tasker × Bool × Sharing × κ × ω) :
    before.2.2.1.LeadsLoading
      ((quiet.loadedAfter resource busy).carry activity before).2.2.2.1 := by
  apply carry_leads fun world : Bool × Sharing × κ × ω => world.2.1
  · rintro ⟨tasker, taken, sharing, knows, world⟩
    have same := keeps.meanwhile (tasker, sharing.resource, world)
    cases taken with
    | false => exact Sharing.leadsLoading_of_same same
    | true => exact (adds.meanwhile tasker sharing knows world).leads_of_same same
  · rintro question ⟨tasker, taken, sharing, knows, world⟩
    have same := keeps.answer question (tasker, sharing.resource, world)
    cases taken with
    | false => exact Sharing.leadsLoading_of_same same
    | true => exact (adds.answer question tasker sharing knows world).leads_of_same same

end Surroundings

namespace Tasker

open Surroundings

/-- A task that starts runs on the graph that is given to it then. -/
theorem carry_startTask (surroundings : Surroundings outside Tasker ω) (patience : Nat)
    (job : TaskJob) (controller resource : Handle) (before : Tasker × ω) :
    let announced := surroundings.carry (announce job) before
    let given := surroundings.answer (.graph resource) announced.2
    surroundings.carry (startTask patience job controller resource) before =
      surroundings.carry (runOn patience job controller resource announced.1
        (Graph.merged given.1 job.overrides)) (announced.2.1, given.2) := by
  intro announced given
  rw [startTask_eq, carry_bind]
  rfl

variable {quiet : Surroundings outside Tasker (Resource × ω)}
  {busy : Surroundings outside Tasker (Sharing × κ × ω)} {resource : Handle}

/-- **A task does not see loads that move after it took its graph, and tasks that start later
do.** Let the resource be loaded, or graphs be put in place in it, by any number of calls that
move between the steps of the task and within its calls, from when it took the graph on; and let
others, and those whom the task calls, do the same however the resource is loaded. Then the
task takes the same course with these loads as without them: to the same outcome and the same
state of the tasker, with its records, visits and notifications, by the same steps and the same
calls with the same answers, one by one. This is so with any ports. The resource is then what
the loads have made of it, if nobody else changes it, and a task that starts later runs on the
graph that it finds there, which is the one that is there now unless it is replaced before. -/
theorem loads_unseen (blind : quiet.Blind resource) (adds : busy.AddsLoads quiet)
    (patience : Nat) (job : TaskJob) (tasker : Tasker) {sharing : Sharing} (tame : sharing.Tame)
    (knows : κ) (world : ω) :
    let before := (tasker, sharing.resource, world)
    let before' := (tasker, false, sharing, knows, world)
    let course := quiet.carry (execute patience job) before
    let course' := (quiet.loadedAfter resource busy).carry (execute patience job) before'
    course'.1 = course.1 ∧ course'.2.1 = course.2.1 ∧
    (quiet.loadedAfter resource busy).events (execute patience job) before' =
      quiet.events (execute patience job) before ∧
    Beside course'.2.2.1 course.2.2 course'.2.2 ∧
    (quiet.Keeps Prod.fst → sharing.LeadsLoading course'.2.2.2.1) ∧
    ∀ later : Surroundings outside Tasker (Sharing × κ × ω),
      (∀ before, (later.answer (.graph resource) before).1 = before.2.1.resource.graph) →
      ∀ patience' next controller,
        let announced := later.carry (announce next) (course'.2.1, course'.2.2.2)
        later.carry (startTask patience' next controller resource) (course'.2.1, course'.2.2.2) =
          later.carry (runOn patience' next controller resource announced.1
              (announced.2.2.1.resource.graph.merged next.overrides))
            (announced.2.1, (later.answer (.graph resource) announced.2).2) ∧
        (later.Keeps (fun world => world.1.resource.graph) →
          announced.2.2.1.resource.graph = course'.2.2.2.1.resource.graph) := by
  intro before before' course course'
  have beside : Beside false (sharing.resource, world) (false, sharing, knows, world) :=
    ⟨rfl, tame, .refl _, fun _ => rfl, rfl⟩
  obtain ⟨value, after, events, taken, -, beside'⟩ :=
    (execute_pins patience job).mirrored (mirrors_loadedAfter blind adds) tasker beside
  refine ⟨value, after, events, ?_, ?_, ?_⟩
  · rw [beside'.known]
    exact beside'
  · intro keeps
    exact leads_loadedAfter adds keeps (execute patience job) before'
  · intro later gives patience' next controller announced
    constructor
    · rw [carry_startTask, gives]
    · intro keeps
      exact carry_keeps (fun world : Sharing × κ × ω => world.1.resource.graph) keeps.meanwhile
        keeps.answer (announce next) _

/-! ### A load within a call -/

/-- One resource says which graph and which plug-ins it has. -/
def steady : Surroundings outside Tasker (Resource × Unit) where
  meanwhile := id
  answer question before := match question with
    | .isLoaded _ => (true, before.2)
    | question => (lending 0).answer question before

/-- The resource with a document of one node loaded. -/
def withOneNode (sharing : Sharing) : Sharing where
  resource := sharing.resource.overlaid
    (Graph.empty.insert (.ofDefaults "A" sharing.resource.defaults))
  loads := sharing.loads ++ [⟨.done (.ok ()), [oneNode]⟩]

/-- Each time that the screen is captured, a document is loaded as well. -/
def reloading : Surroundings outside Tasker (Sharing × Unit × Unit) where
  meanwhile := id
  answer question before :=
    ((steady.answer question (before.1, before.2.1.resource, ())).1,
      (match question with
        | .capture _ => withOneNode before.2.1
        | _ => before.2.1), (), ())

theorem steady_blind : steady.Blind 0 where
  meanwhile tasker held held' world akin := ⟨rfl, akin, rfl⟩
  answer question blind tasker held held' world akin := by
    refine ⟨?_, ?_, rfl⟩
    · cases question with
      | graph other =>
        have differs : ¬ other = 0 := of_decide_eq_false blind
        exact (if_neg differs).trans (if_neg differs).symm
      | recognitionPlugIn _ name =>
        show held'.recognitions[name]? = held.recognitions[name]?
        rw [akin.recognitions]
      | actionPlugIn _ name =>
        show held'.actions[name]? = held.actions[name]?
        rw [akin.actions]
      | _ => rfl
    · cases question <;> exact akin

theorem reloading_addsLoads : reloading.AddsLoads steady where
  meanwhile tasker sharing knows world := ⟨rfl, .refl, rfl⟩
  answer question tasker sharing knows world := by
    refine ⟨rfl, ?_, rfl⟩
    cases question with
    | capture controller => exact Sharing.leadsLoading_json (ofJson_oneNode _)
    | _ => exact .refl

/-- A task that recognizes a node of its own. -/
def glance : TaskJob := ⟨⟨1⟩, "B", .recognition, Graph.empty.insert (.ofDefaults "B" default)⟩

/-- A node is loaded while the task runs, which succeeds as it does otherwise. -/
theorem reloading_unseen :
    (⟨vacant, []⟩ : Sharing).Tame ∧ steady.Blind 0 ∧ reloading.AddsLoads steady ∧
    let course' := (steady.loadedAfter 0 reloading).carry (execute 1 glance)
      (bound, false, ⟨vacant, []⟩, (), ())
    course'.1 = some .succeeded ∧
      course'.2.1 = (steady.carry (execute 1 glance) (bound, vacant, ())).2.1 ∧
      vacant.graph.contains "A" = false ∧
      course'.2.2.2.1.resource.graph.contains "A" = true := by
  have tame : (⟨vacant, []⟩ : Sharing).Tame := List.forall_mem_nil _
  obtain ⟨value, tasker, -, -, -⟩ :=
    loads_unseen steady_blind reloading_addsLoads 1 glance bound tame () ()
  have succeeds : (steady.carry (execute 1 glance) (bound, vacant, ())).1 = some .succeeded := rfl
  refine ⟨tame, steady_blind, reloading_addsLoads, value.trans succeeds, tasker, rfl, ?_⟩
  decide +kernel

end Tasker

end Surroundings

end ScreenPilot
