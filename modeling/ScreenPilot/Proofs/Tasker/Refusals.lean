import ScreenPilot.Proofs.Activity.Timelines
import ScreenPilot.Proofs.Run.Returns
import ScreenPilot.Proofs.Tasker.Conduct

/-!
# Posts that are refused

A post looks at what is bound, has its overrides read and then decides in one step. What it finds
on its way settles whether it is accepted (`Verdict`), and a post that is refused does nothing
but look. Where nobody disturbs it, it finds what was there when it began (`Linked`).

So it leaves no trace among others either: a session with a post that was refused is one without
it, in which all others have done the same (`leads_without`). What carries the proof is that a
call that posts only looks until it decides (`Tasker.Decides`), so up to then its moves change
nothing but itself, and that a call that was accepted does not become one that was refused
(`Erasable`).
-/

set_option autoImplicit false

namespace ScreenPilot

open Activity

namespace Tasker

open Engine (outside)

/-! ## What a post finds -/

/-- What a post does by itself, and what it asks. -/
abbrev PostEvent : Type := Activity.Event outside Tasker

/-- A loaded resource and a connected controller are found. -/
inductive Ready : List PostEvent → Prop where
  | intro {first second : Tasker} {resource controller : Handle}
      (isResource : first.resource = some resource)
      (isController : second.controller = some controller) :
      Ready
        [.step first first, .call (.isLoaded resource) (some true),
          .step second second, .call (.isConnected controller) (some true)]

/-- Something is missing. -/
inductive Unready : List PostEvent → EngineError → Prop where
  | noResource {found : Tasker} (unbound : found.resource = none) :
      Unready [.step found found] .notInitialized
  | notLoaded {found : Tasker} {resource : Handle} (isResource : found.resource = some resource) :
      Unready [.step found found, .call (.isLoaded resource) (some false)] .notInitialized
  | noController {first second : Tasker} {resource : Handle}
      (isResource : first.resource = some resource) (unbound : second.controller = none) :
      Unready
        [.step first first, .call (.isLoaded resource) (some true), .step second second]
        .notInitialized
  | notConnected {first second : Tasker} {resource controller : Handle}
      (isResource : first.resource = some resource)
      (isController : second.controller = some controller) :
      Unready
        [.step first first, .call (.isLoaded resource) (some true),
          .step second second, .call (.isConnected controller) (some false)]
        (.controller "not connected")

/-- What a post does, and what comes of it by what it finds. It is accepted if a loaded resource
and a connected controller are bound, the overrides can be read and no request to stop is being
carried out. -/
inductive Verdict (entry : String) (overrides : Json) (kind : TaskKind) :
    List PostEvent → Outcome TaskId → Prop where
  | unready {events : List PostEvent} {error : EngineError} (unready : Unready events error) :
      Verdict entry overrides kind events (.error error)
  | unread {checks : List PostEvent} {found : Tasker} {error : EngineError} (ready : Ready checks)
      (unread : readOverrides found.defaults overrides = .error error) :
      Verdict entry overrides kind (checks ++ [.step found found]) (.error error)
  | stopping {checks : List PostEvent} {found last : Tasker} {graph : Graph} {now : Timestamp}
      (ready : Ready checks) (read : readOverrides found.defaults overrides = .ok graph)
      (stopping : last.stopping = true) :
      Verdict entry overrides kind
        (checks ++ [.step found found, .call .date (some now), .step last last])
        (.error .stopping)
  /-- It is given the next identity. -/
  | accepted {checks : List PostEvent} {found last : Tasker} {graph : Graph} {now : Timestamp}
      (ready : Ready checks) (read : readOverrides found.defaults overrides = .ok graph)
      (going : last.stopping = false) :
      Verdict entry overrides kind
        (checks ++ [.step found found, .call .date (some now),
          .step last (last.accept entry kind graph now).2])
        (.ok ⟨last.engine.ids.task + 1⟩)

/-- What happens leaves the tasker as it is. -/
def IsLook : PostEvent → Prop
  | .step before after => after = before
  | .call _ _ => True

theorem Ready.looks {events : List PostEvent} (ready : Ready events) :
    ∀ event ∈ events, IsLook event := by
  cases ready
  simp [IsLook]

theorem Unready.looks {events : List PostEvent} {error : EngineError}
    (unready : Unready events error) : ∀ event ∈ events, IsLook event := by
  cases unready <;> simp [IsLook]

/-- A post that is refused only looks. -/
theorem Verdict.looks {entry : String} {overrides : Json} {kind : TaskKind}
    {events : List PostEvent} {error : EngineError}
    (verdict : Verdict entry overrides kind events (.error error)) :
    ∀ event ∈ events, IsLook event := by
  cases verdict with
  | unready unready => exact unready.looks
  | unread ready => exact List.forall_mem_append.mpr ⟨ready.looks, by simp [IsLook]⟩
  | stopping ready => exact List.forall_mem_append.mpr ⟨ready.looks, by simp [IsLook]⟩

/-! ## The course of a post -/

variable {ω : Type} (surroundings : Surroundings outside Tasker ω) (clock : ω → Nat)

open Surroundings

theorem checkReady_unfolds (before : Tasker × ω) :
    ∃ timeline ready final, surroundings.Unfolds clock checkReady before timeline ready final ∧
      (ready = .ok () ∧ Ready (timeline.map Prod.snd) ∨
        ∃ error, ready = .error error ∧ Unready (timeline.map Prod.snd) error) := by
  obtain ⟨_, first, looked, looks⟩ := Unfolds.exists_reads surroundings clock Tasker.resource before
  unfold checkReady
  cases isResource : first.resource with
  | none =>
    rw [isResource] at looks
    exact ⟨_, _, _, looks.close rfl, .inr ⟨_, rfl, .noResource isResource⟩⟩
  | some resource =>
    rw [isResource] at looks
    obtain ⟨_, isLoaded, told, loads⟩ :=
      Unfolds.exists_ask surroundings clock (.isLoaded resource) looked
    cases isLoaded with
    | false =>
      exact ⟨_, _, _, looks.bind (loads.close rfl), .inr ⟨_, rfl, .notLoaded isResource⟩⟩
    | true =>
      obtain ⟨_, second, looked', looks'⟩ :=
        Unfolds.exists_reads surroundings clock Tasker.controller told
      cases isController : second.controller with
      | none =>
        rw [isController] at looks'
        exact ⟨_, _, _, looks.bind (loads.bind (looks'.close rfl)),
          .inr ⟨_, rfl, .noController isResource isController⟩⟩
      | some controller =>
        rw [isController] at looks'
        obtain ⟨_, isConnected, told', connects⟩ :=
          Unfolds.exists_ask surroundings clock (.isConnected controller) looked'
        cases isConnected with
        | false =>
          exact ⟨_, _, _, looks.bind (loads.bind (looks'.bind (connects.close rfl))),
            .inr ⟨_, rfl, .notConnected isResource isController⟩⟩
        | true =>
          exact ⟨_, _, _, looks.bind (loads.bind (looks'.bind (connects.close rfl))),
            .inl ⟨rfl, .intro isResource isController⟩⟩

/-- A tasker that is not stopping accepts under the next identity. -/
theorem accept_of_going {tasker : Tasker} (going : tasker.stopping = false) (entry : String)
    (kind : TaskKind) (graph : Graph) (now : Timestamp) :
    (tasker.accept entry kind graph now).1 = .ok ⟨tasker.engine.ids.task + 1⟩ := by
  unfold accept
  rw [going, if_neg Bool.false_ne_true]
  rfl

/-- The last step of a post settles what comes of it. -/
theorem Verdict.of_accept {entry : String} {overrides : Json} {kind : TaskKind}
    {checks : List PostEvent} {found : Tasker} {graph : Graph} (ready : Ready checks)
    (read : readOverrides found.defaults overrides = .ok graph) (now : Timestamp) (last : Tasker) :
    Verdict entry overrides kind
      (checks ++ [.step found found, .call .date (some now),
        .step last (last.accept entry kind graph now).2])
      (last.accept entry kind graph now).1 := by
  cases stopping : last.stopping with
  | true =>
    rw [accept_of_stopping stopping]
    exact .stopping ready read stopping
  | false =>
    rw [accept_of_going stopping]
    exact .accepted ready read stopping

/-- **What comes of a post is settled by what it finds.** -/
theorem tryPost_unfolds (entry : String) (overrides : Json) (kind : TaskKind)
    (before : Tasker × ω) :
    ∃ timeline outcome final,
      surroundings.Unfolds clock (tryPost entry overrides kind) before timeline outcome final ∧
      Verdict entry overrides kind (timeline.map Prod.snd) outcome := by
  obtain ⟨checking, ready, checked, checks, isReady⟩ := checkReady_unfolds surroundings clock before
  unfold tryPost
  rcases isReady with ⟨rfl, ready⟩ | ⟨error, rfl, unready⟩
  · obtain ⟨_, found, looked, looks⟩ :=
      Unfolds.exists_reads surroundings clock Tasker.defaults checked
    cases read : readOverrides found.defaults overrides with
    | error error =>
      refine ⟨_, .error error, looked, checks.bind (looks.close ?_), ?_⟩
      · rw [read]
      · rw [List.map_append]
        exact .unread ready read
    | ok graph =>
      obtain ⟨asked, (now : Timestamp), dated, asks⟩ :=
        Unfolds.exists_ask surroundings clock .date looked
      obtain ⟨decided, last, final, decides⟩ := Unfolds.exists_transact surroundings clock
        (accept entry kind graph now) dated
      refine ⟨checking ++ [(_, .step found found), (asked, .call .date (some now)),
        (decided, .step last (last.accept entry kind graph now).2)],
        (last.accept entry kind graph now).1, final, checks.bind (looks.bind ?_), ?_⟩
      · rw [read]
        exact asks.bind decides
      · rw [List.map_append]
        exact .of_accept ready read now last
  · exact ⟨_, _, _, checks.close rfl, .unready unready⟩

/-- Null and documents are what can be read as overrides. -/
theorem exists_readOverrides {defaults : NodeDefaults} {overrides : Json} :
    (∃ graph, readOverrides defaults overrides = .ok graph) ↔
      overrides = .null ∨ ∃ graph, Graph.ofJson defaults overrides = .ok graph := by
  unfold readOverrides
  split
  · exact ⟨fun _ => .inl rfl, fun _ => ⟨_, rfl⟩⟩
  · rename_i notNull
    rw [or_iff_right notNull]
    cases Graph.ofJson defaults overrides with
    | ok graph => exact ⟨fun _ => ⟨graph, rfl⟩, fun _ => ⟨graph, rfl⟩⟩
    | error error => exact ⟨nofun, nofun⟩

/-- A tasker that nobody else works on accepts a post in the course of which these things
happen. -/
structure Accepts (tasker : Tasker) (overrides : Json) (events : List PostEvent) : Prop where
  resource : ∃ resource, tasker.resource = some resource ∧
    .call (.isLoaded resource) (some true) ∈ events
  controller : ∃ controller, tasker.controller = some controller ∧
    .call (.isConnected controller) (some true) ∈ events
  overrides : overrides = .null ∨ ∃ graph, Graph.ofJson tasker.defaults overrides = .ok graph
  going : tasker.stopping = false

/-- What a post comes to, and the one that hides why it was refused. -/
structure Posts (surroundings : Surroundings outside Tasker ω) (entry : String)
    (overrides : Json) (kind : TaskKind) (before : Tasker × ω) (events : List PostEvent)
    (outcome : Outcome TaskId) (final : Tasker × ω) : Prop where
  tried : surroundings.carry (tryPost entry overrides kind) before = (outcome, final)
  tries : surroundings.events (tryPost entry overrides kind) before = events
  posted : surroundings.carry (post entry overrides kind) before =
    (outcome.toOption.getD .invalid, final)
  posts : surroundings.events (post entry overrides kind) before = events

/-- **What comes of a post is settled by what it finds, in any surroundings.** -/
theorem exists_posts (surroundings : Surroundings outside Tasker ω) (entry : String)
    (overrides : Json) (kind : TaskKind) (before : Tasker × ω) :
    ∃ events outcome final,
      Posts surroundings entry overrides kind before events outcome final ∧
      Verdict entry overrides kind events outcome := by
  obtain ⟨timeline, outcome, final, tries, verdict⟩ :=
    tryPost_unfolds surroundings (fun _ => 0) entry overrides kind before
  have posts : surroundings.Unfolds (fun _ => 0) (post entry overrides kind) before timeline
      (outcome.toOption.getD .invalid) final := by
    refine tries.close ?_
    cases outcome with
    | ok task => rfl
    | error error => rfl
  exact ⟨_, outcome, final, ⟨tries.course, tries.events, posts.course, posts.events⟩, verdict⟩

section Alone

variable {entry : String} {overrides : Json} {kind : TaskKind} {events : List PostEvent}
  {outcome : Outcome TaskId} {first last : Tasker}

/-- A tasker at which everyone only looks stays as it is. -/
theorem eq_of_looks (linked : Linked first events last) (looks : ∀ event ∈ events, IsLook event) :
    last = first := by
  induction events generalizing first with
  | nil => exact linked
  | cons event events ih =>
    obtain ⟨isLook, look⟩ := List.forall_mem_cons.mp looks
    cases event with
    | step found after => exact (ih linked.2 look).trans (isLook.trans linked.1)
    | call question answer => exact ih linked look

/-- Nothing is missing where a loaded resource and a connected controller are bound. -/
theorem Unready.contradicts {error : EngineError} (unready : Unready events error)
    (linked : Linked first events last) {resource controller : Handle}
    (isResource : first.resource = some resource)
    (loaded : .call (.isLoaded resource) (some true) ∈ events)
    (isController : first.controller = some controller)
    (connected : .call (.isConnected controller) (some true) ∈ events) : False := by
  cases unready with
  | noResource unbound =>
    rw [← linked.1, unbound] at isResource
    cases isResource
  | notLoaded isResource' =>
    rw [← linked.1, isResource'] at isResource
    cases isResource
    simp only [List.mem_cons, List.not_mem_nil, or_false] at loaded
    rcases loaded with same | same <;> cases same
  | noController isResource' unbound =>
    obtain ⟨rfl, rfl, -⟩ := linked
    rw [unbound] at isController
    cases isController
  | notConnected isResource' isController' =>
    obtain ⟨rfl, rfl, -⟩ := linked
    rw [isController'] at isController
    cases isController
    simp only [List.mem_cons, List.not_mem_nil, or_false] at connected
    rcases connected with same | same | same | same <;> cases same

/-- **A post at which nobody disturbs the tasker is accepted if and only if a loaded resource and a
connected controller are bound, the overrides can be read and the tasker is not stopping.** -/
theorem Verdict.accepted_iff (verdict : Verdict entry overrides kind events outcome)
    (linked : Linked first events last) :
    (∃ task, outcome = .ok task) ↔ first.Accepts overrides events := by
  cases verdict with
  | unready unready =>
    refine ⟨nofun, fun accepts => ?_⟩
    obtain ⟨resource, isResource, loaded⟩ := accepts.resource
    obtain ⟨controller, isController, connected⟩ := accepts.controller
    exact (unready.contradicts linked isResource loaded isController connected).elim
  | unread ready unread =>
    refine ⟨nofun, fun accepts => ?_⟩
    obtain ⟨graph, read⟩ := exists_readOverrides.mpr accepts.overrides
    cases ready with
    | intro =>
      obtain ⟨rfl, rfl, rfl, -⟩ := linked
      cases unread.symm.trans read
  | stopping ready read stopping =>
    refine ⟨nofun, fun accepts => ?_⟩
    cases ready with
    | intro =>
      obtain ⟨rfl, rfl, rfl, rfl, -⟩ := linked
      cases stopping.symm.trans accepts.going
  | accepted ready read going =>
    refine ⟨fun _ => ?_, fun _ => ⟨_, rfl⟩⟩
    cases ready with
    | intro isResource isController =>
      obtain ⟨rfl, rfl, rfl, rfl, -⟩ := linked
      exact ⟨⟨_, isResource, by simp⟩, ⟨_, isController, by simp⟩,
        exists_readOverrides.mp ⟨_, read⟩, going⟩

end Alone

end Tasker

namespace Session

/-! ## Sessions without a call -/

/-- The session without one of its calls. -/
def without (poster : Nat) (session : Session) : Session :=
  { session with calls := session.calls.eraseIdx poster }

variable {poster : Nat} {mover : Mover} {first session session' : Session}

/-- What has another place in a list has one without this place as well. -/
theorem exists_eraseIdx_set {α : Type} {items : List α} {index removed : Nat} {item : α}
    (other : index ≠ removed) (found : items[index]? = some item) (item' : α) :
    ∃ index', (items.eraseIdx removed)[index']? = some item ∧
      (items.set index item').eraseIdx removed = (items.eraseIdx removed).set index' item' := by
  rcases Nat.lt_or_gt_of_ne other with earlier | later
  · exact ⟨index, (List.getElem?_eraseIdx_of_lt earlier).trans found, List.eraseIdx_set_gt earlier⟩
  · obtain ⟨index, rfl⟩ := Nat.exists_eq_add_one_of_ne_zero (Nat.ne_zero_of_lt later)
    have behind : removed ≤ index := Nat.le_of_lt_succ later
    exact ⟨index, (List.getElem?_eraseIdx_of_ge behind).trans found, List.eraseIdx_set_lt later⟩

/-- What others do, they do without the call as well. -/
theorem Step.without (step : Step mover session session') (other : mover ≠ .call poster)
    (begun : poster < session.calls.length) :
    ∃ mover, Step mover (session.without poster) (session'.without poster) := by
  cases step with
  | begin begins =>
    refine ⟨.caller, ?_⟩
    rw [Session.without, Session.without, List.eraseIdx_append_of_lt_length begun]
    exact .begin begins
  | @call _ index call call' tasker found moves =>
    obtain ⟨index', found', same⟩ :=
      exists_eraseIdx_set (fun same => other (congrArg Mover.call same)) found call'
    refine ⟨.call index', ?_⟩
    rw [Session.without, Session.without, same]
    exact .call found' moves
  | work moves => exact ⟨.worker, .work moves⟩
  | serve patience idle free => exact ⟨.worker, .serve patience idle free⟩
  | crash asks current => exact ⟨.worker, .crash asks current⟩

/-- Others leave a call as it is. -/
theorem Step.keeps_call (step : Step mover session session') (other : mover ≠ .call poster)
    {call : Call} (found : session.calls[poster]? = some call) :
    session'.calls[poster]? = some call := by
  obtain ⟨begun, -⟩ := List.getElem?_eq_some_iff.mp found
  cases step with
  | begin => exact (List.getElem?_append_left begun).trans found
  | @call _ index => exact (List.getElem?_set_ne fun same => other (congrArg _ same)).trans found
  | work | serve | crash => exact found

/-! ## Refused posts -/

/-- What is left of a post that has changed nothing. -/
def Harmless (rest : Tasker.Tasking (Outcome TaskId)) : Prop :=
  Tasker.Decides rest ∨ ∃ error, rest = .done (.error error)

/-- A call that is not a post, or one that was accepted. -/
inductive Lasting : Call → Prop where
  | accepted (task : TaskId) : Lasting (.posting (.done (.ok task)))
  | stopping (rest : Tasker.Tasking TaskId) : Lasting (.stopping rest)
  | aside (rest : Tasker.Tasking Unit) : Lasting (.aside rest)

theorem Lasting.moves {call call' : Call} {before after : Tasker} (lasting : Lasting call)
    (moves : call.Moves before call' after) : Lasting call' := by
  cases lasting with
  | accepted =>
    cases moves with
    | posting moves => cases moves
  | stopping =>
    cases moves with
    | stopping => exact .stopping _
  | aside =>
    cases moves with
    | aside => exact .aside _

/-- A post that moves has changed nothing, or it was accepted. -/
theorem Harmless.moves {rest rest' : Tasker.Tasking (Outcome TaskId)} {before after : Tasker}
    (harmless : Harmless rest) (moves : rest.Moves before rest' after) :
    after = before ∧ Harmless rest' ∨ Lasting (.posting rest') := by
  rcases harmless with decides | ⟨error, rfl⟩
  · cases moves with
    | step change next =>
      rcases decides with looks | ⟨entry, kind, graph, now, -, decision⟩
      · exact .inl ⟨(looks before).1, .inl (looks before).2⟩
      · cases decision
        show (before.accept entry kind graph now).2 = before ∧
            Harmless (.done (before.accept entry kind graph now).1) ∨
          Lasting (.posting (.done (before.accept entry kind graph now).1))
        cases stopping : before.stopping with
        | true =>
          rw [Tasker.accept_of_stopping stopping]
          exact .inl ⟨rfl, .inr ⟨_, rfl⟩⟩
        | false =>
          rw [Tasker.accept_of_going stopping]
          exact .inr (.accepted _)
    | ask question next answer => exact .inl ⟨rfl, .inl (decides answer)⟩
  · cases moves

/-- What has become of a call with a number, and of the session without it as long as the call has
changed nothing. -/
inductive Erasable (first : Session) (poster : Nat) (session : Session) : Prop where
  | early (early : session.calls.length ≤ poster) (leads : first.Leads session)
  | harmless {rest : Tasker.Tasking (Outcome TaskId)}
      (found : session.calls[poster]? = some (.posting rest)) (harmless : Harmless rest)
      (leads : first.Leads (session.without poster))
  | lasting {call : Call} (found : session.calls[poster]? = some call) (lasting : Lasting call)

theorem Erasable.begin {call : Call} (begins : call.Begins)
    (early : session.calls.length ≤ poster) (leads : first.Leads session)
    (goes : session.Goes { session with calls := session.calls ++ [call] }) :
    Erasable first poster { session with calls := session.calls ++ [call] } := by
  rcases Nat.lt_or_eq_of_le early with earlier | rfl
  · refine .early ?_ (leads.tail goes)
    rw [List.length_append]
    exact earlier
  have found : (session.calls ++ [call])[session.calls.length]? = some call :=
    List.getElem?_concat_length
  cases begins with
  | post entry overrides isTask =>
    refine .harmless found (.inl (Tasker.tryPost_decides entry overrides isTask)) ?_
    rw [without, List.eraseIdx_append_of_length_le (Nat.le_refl _), Nat.sub_self]
    simpa using leads
  | stop => exact .lasting found (.stopping _)
  | aside => exact .lasting found (.aside _)

/-- The call moves itself. -/
theorem Erasable.call {call call' : Call} {tasker : Tasker} (erasable : Erasable first poster session)
    (found : session.calls[poster]? = some call) (moves : call.Moves session.tasker call' tasker) :
    Erasable first poster { session with tasker, calls := session.calls.set poster call' } := by
  obtain ⟨begun, -⟩ := List.getElem?_eq_some_iff.mp found
  have found' : (session.calls.set poster call')[poster]? = some call' :=
    List.getElem?_set_self begun
  cases erasable with
  | early early => exact absurd begun (Nat.not_lt_of_le early)
  | harmless posting harmless leads =>
    cases posting.symm.trans found
    cases moves with
    | posting moves =>
      rcases harmless.moves moves with ⟨rfl, harmless⟩ | lasting
      · refine .harmless found' harmless ?_
        rw [without, List.eraseIdx_set_eq]
        exact leads
      · exact .lasting found' lasting
  | lasting keeps lasting =>
    cases keeps.symm.trans found
    exact .lasting found' (lasting.moves moves)

/-- **A post has changed nothing before it is accepted, whatever others do.** -/
theorem Erasable.goes (erasable : Erasable first poster session) (goes : session.Goes session') :
    Erasable first poster session' := by
  obtain ⟨⟨mover, step⟩, upward⟩ := id goes
  by_cases isMover : mover = .call poster
  · subst isMover
    cases step with
    | call found moves => exact erasable.call found moves
  cases erasable with
  | early early leads =>
    cases step with
    | begin begins => exact .begin begins early leads goes
    | call => exact .early (Nat.le_trans (Nat.le_of_eq List.length_set) early) (leads.tail goes)
    | work | serve | crash => exact .early early (leads.tail goes)
  | harmless found harmless leads =>
    obtain ⟨begun, -⟩ := List.getElem?_eq_some_iff.mp found
    exact .harmless (step.keeps_call isMover found) harmless
      (leads.tail ⟨step.without isMover begun, upward⟩)
  | lasting found lasting => exact .lasting (step.keeps_call isMover found) lasting

/-- **A session in which a post was refused is one in which this post was never made.** -/
theorem leads_without {error : EngineError} (leads : first.Leads session)
    (later : first.calls.length ≤ poster)
    (refused : session.calls[poster]? = some (.posting (.done (.error error)))) :
    first.Leads (session.without poster) := by
  have erasable : Erasable first poster session := by
    clear refused
    induction leads with
    | refl => exact .early later .refl
    | tail _ goes ih => exact ih.goes goes
  cases erasable with
  | early early =>
    rw [List.getElem?_eq_none early] at refused
    cases refused
  | harmless _ _ leads => exact leads
  | lasting found lasting =>
    cases refused.symm.trans found
    cases lasting

/-- **A post that is refused leaves no trace.** It only looks, and is accepted if and only if
nothing is missing. A session in which it was refused is one without it, and the next task that is
accepted in it has the same identity. -/
theorem post_leaves_no_trace :
    (∀ {ω : Type} (surroundings : Surroundings Engine.outside Tasker ω) (entry : String)
      (overrides : Json) (kind : TaskKind) (before : Tasker × ω),
      ∃ events outcome final,
        Tasker.Posts surroundings entry overrides kind before events outcome final ∧
        Tasker.Verdict entry overrides kind events outcome ∧
        (∀ error, outcome = .error error → ∀ event ∈ events, Tasker.IsLook event) ∧
        ((∀ before, (surroundings.meanwhile before).1 = before.1) →
          ((∃ task, outcome = .ok task) ↔ before.1.Accepts overrides events) ∧
          ∀ error, outcome = .error error → final.1 = before.1)) ∧
    ∀ (first session : Session) (poster : Nat) (error : EngineError), first.Leads session →
      first.calls.length ≤ poster →
      session.calls[poster]? = some (.posting (.done (.error error))) →
      first.Leads (session.without poster) := by
  refine ⟨fun surroundings entry overrides kind before => ?_,
    fun _ _ _ _ leads later refused => leads_without leads later refused⟩
  obtain ⟨events, outcome, final, posts, verdict⟩ :=
    Tasker.exists_posts surroundings entry overrides kind before
  have looks : ∀ error, outcome = .error error → ∀ event ∈ events, Tasker.IsLook event := by
    rintro error rfl
    exact verdict.looks
  refine ⟨events, outcome, final, posts, verdict, looks, fun alone => ?_⟩
  have linked := Surroundings.linked_events alone (Tasker.tryPost entry overrides kind) before
  rw [posts.tries, posts.tried] at linked
  exact ⟨verdict.accepted_iff linked,
    fun error refused => Tasker.eq_of_looks linked (looks error refused)⟩

/-- All is well, and nobody else is there. -/
def calm : Surroundings Engine.outside Tasker Unit where
  meanwhile := id
  answer question _ := ((RunContext.standstill.answer question (.new false, ())).1, ())

/-- A tasker that lacks nothing but is stopping. -/
def halting : Tasker :=
  { ((Tasker.new default default).bindResource 0).bindController 0 with stopping := true }

/-- A tasker that is stopping refuses a post, and so does one to which nothing is bound. -/
theorem halting_leaves_no_trace :
    (∀ before, (calm.meanwhile before).1 = before.1) ∧
    (∃ final, calm.carry (Tasker.tryPost "A" .null .pipeline) (halting, ()) =
      (.error .stopping, final) ∧ final.1 = halting) ∧
    ∃ session, (start default default).Leads session ∧ (start default default).calls.length ≤ 0 ∧
      session.calls[0]? = some (.posting (.done (.error .notInitialized))) ∧
      (start default default).Leads (session.without 0) := by
  obtain ⟨events, outcome, final, posts, -, -, alone⟩ :=
    post_leaves_no_trace.1 calm "A" .null .pipeline (halting, ())
  have refused : outcome = .error .stopping :=
    congrArg Prod.fst (posts.tried.symm.trans rfl)
  have quiet : ∀ before, (calm.meanwhile before).1 = before.1 := fun _ => rfl
  refine ⟨quiet, ⟨final, ?_, (alone quiet).2 _ refused⟩, ?_⟩
  · rw [posts.tried, refused]
  · let posting : Session := { start default default with
      calls := [.posting (Tasker.tryPost "A" .null .pipeline)] }
    let refusing : Session := { start default default with
      calls := [.posting (.done (.error .notInitialized))] }
    have upward : (Tasker.new default default).Upward (.new default default) :=
      ⟨UInt64.le_refl _, UInt64.le_refl _⟩
    have begins : (start default default).Goes posting :=
      ⟨⟨_, .begin (.post "A" .null nofun)⟩, upward⟩
    have looks : posting.Goes refusing := ⟨⟨.call 0, .call rfl (.posting (.step _ _ _))⟩, upward⟩
    have leads : (start default default).Leads refusing := .tail (.single begins) looks
    exact ⟨refusing, leads, Nat.le_refl _, rfl,
      post_leaves_no_trace.2 _ _ 0 .notInitialized leads (Nat.le_refl _) rfl⟩

end Session

end ScreenPilot
