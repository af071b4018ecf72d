import ScreenPilot.Proofs.Tasker.Ledger

/-!
# Sessions and their ledgers

A session conforms to a ledger if what is left of each call and of the worker's
turn obeys the phase the ledger has for it. Every move of a session is then a
step of the ledger, and the session conforms again (`Conforms.step`). So what
the steps of sound ledgers preserve holds of every session that another one
leads to (`Conforms.leads`).
-/

set_option autoImplicit false

namespace ScreenPilot

open Activity

/-- What is left of a call obeys a phase. Only calls that stop have phases of
their own; a call that posts has ended or has yet to decide. -/
def Call.In : Call → StopPhase → Prop
  | .posting rest, phase =>
    phase = .other ∧ ((∃ outcome, rest = .done outcome) ∨ Tasker.Decides rest)
  | .stopping rest, phase => rest.Obeys StopPhase.Go StopPhase.Over phase
  | .aside rest, phase => phase = .other ∧ rest.Steps Tasker.Aside

namespace Session

/-- A session agrees with its ledger. -/
structure Conforms (session : Session) (ledger : Ledger) : Prop where
  tasker : ledger.tasker = session.tasker
  calls : ∀ (index : Nat) (call : Call), session.calls[index]? = some call →
    call.In (ledger.stops index)
  later : ∀ index, session.calls.length ≤ index → ledger.stops index = .other
  worker : session.worker.Obeys WorkPhase.Go WorkPhase.Over ledger.work

theorem conforms_start (settings : TaskerSettings) (defaults : NodeDefaults) :
    (start settings defaults).Conforms
      ⟨.new settings defaults, fun _ => .other, .free⟩ where
  tasker := rfl
  calls := by simp [start]
  later := fun _ _ => rfl
  worker := trivial

variable {session session' : Session} {ledger : Ledger} {mover : Mover}

/-- A call that has a phase is one that stops. -/
theorem Conforms.stopping (conforms : session.Conforms ledger) {index : Nat}
    (notOther : ledger.stops index ≠ .other) :
    ∃ rest, session.calls[index]? = some (.stopping rest) := by
  cases found : session.calls[index]? with
  | none => exact absurd (conforms.later index (List.getElem?_eq_none_iff.mp found)) notOther
  | some call =>
    have obeys := conforms.calls index call found
    cases call with
    | posting rest => exact absurd obeys.1 notOther
    | stopping rest => exact ⟨rest, rfl⟩
    | aside rest => exact absurd obeys.1 notOther

/-- A call that has put its marker into the queue has returned it. -/
theorem Conforms.marked (conforms : session.Conforms ledger) {index : Nat} {marker : TaskId}
    (marked : ledger.stops index = .marked marker) :
    session.calls[index]? = some (.stopping (.done marker)) := by
  have notOther : ledger.stops index ≠ .other := by
    rw [marked]
    exact nofun
  obtain ⟨rest, found⟩ := conforms.stopping notOther
  have obeys := conforms.calls index _ found
  rw [marked] at obeys
  rw [found, StopPhase.eq_done_of_marked obeys]

/-- A call that has returned a marker has put it into the queue. -/
theorem Conforms.returned (conforms : session.Conforms ledger) {index : Nat} {marker : TaskId}
    (found : session.calls[index]? = some (.stopping (.done marker))) :
    ledger.stops index = .marked marker :=
  conforms.calls index _ found

/-! ## One move -/

/-- A call that begins conforms in the phase it begins with. -/
theorem Conforms.begin (conforms : session.Conforms ledger) {call : Call}
    (begins : call.Begins) :
    ∃ ledger', ({ session with calls := session.calls ++ [call] } : Session).Conforms ledger' ∧
      ledger.Step .caller ledger' := by
  have unborn := conforms.later session.calls.length (Nat.le_refl _)
  have append : ∀ (stops : Nat → StopPhase),
      (∀ index, index ≠ session.calls.length → stops index = ledger.stops index) →
      call.In (stops session.calls.length) →
      ({ session with calls := session.calls ++ [call] } : Session).Conforms
        { ledger with stops } := by
    intro stops same first
    refine ⟨conforms.tasker, ?_, ?_, conforms.worker⟩
    · intro index other found
      rw [List.getElem?_append] at found
      split at found
      · rename_i before
        show other.In (stops index)
        rw [same index (Nat.ne_of_lt before)]
        exact conforms.calls index other found
      · rename_i notBefore
        obtain ⟨atEnd, rfl⟩ : index - session.calls.length = 0 ∧ call = other := by
          cases position : index - session.calls.length with
          | zero =>
            rw [position] at found
            exact ⟨rfl, Option.some.inj found⟩
          | succ more =>
            rw [position] at found
            cases found
        have isEnd : index = session.calls.length := by omega
        rw [isEnd]
        exact first
    · intro index after
      rw [List.length_append, List.length_singleton] at after
      show stops index = .other
      rw [same index (by omega)]
      exact conforms.later index (by omega)
  cases begins with
  | post entry overrides isTask =>
    have decides := Tasker.tryPost_decides entry overrides isTask
    exact ⟨ledger, append _ (fun _ _ => rfl) ⟨unborn, .inr decides⟩, .aside (.refl _)⟩
  | stop =>
    refine ⟨_, append (Function.update ledger.stops session.calls.length .called) ?_ ?_,
      .begin _ unborn⟩
    · intro index differs
      exact Function.update_of_ne differs _ _
    · rw [Function.update_self]
      exact Tasker.postStop_obeys
  | aside steps => exact ⟨ledger, append _ (fun _ _ => rfl) ⟨unborn, steps⟩, .aside (.refl _)⟩

/-- What becomes of a call by one move. -/
theorem Call.In.moves {call call' : Call} {index : Nat} {tasker : Tasker}
    (obeys : call.In (ledger.stops index)) (moves : call.Moves ledger.tasker call' tasker) :
    ∃ ledger', ledger'.tasker = tasker ∧ ledger'.work = ledger.work ∧
      (∀ other, other ≠ index → ledger'.stops other = ledger.stops other) ∧
      (ledger.stops index = .other → ledger'.stops index = .other) ∧
      call'.In (ledger'.stops index) ∧ ledger.Step (.call index) ledger' := by
  cases moves with
  | posting moves =>
    obtain ⟨other, decides⟩ := obeys
    have stays : ∀ {tasker : Tasker} {rest : Tasker.Tasking (Outcome TaskId)},
        ((∃ outcome, rest = .done outcome) ∨ Tasker.Decides rest) →
        ledger.Step (.call index) { ledger with tasker } →
        ∃ ledger' : Ledger, ledger'.tasker = tasker ∧ ledger'.work = ledger.work ∧
          (∀ other, other ≠ index → ledger'.stops other = ledger.stops other) ∧
          (ledger.stops index = .other → ledger'.stops index = .other) ∧
          (Call.posting rest).In (ledger'.stops index) ∧ ledger.Step (.call index) ledger' :=
      fun rest step =>
        ⟨{ ledger with tasker := _ }, rfl, rfl, fun _ _ => rfl, id, ⟨other, rest⟩, step⟩
    rcases decides with ⟨outcome, rfl⟩ | decides
    · cases moves
    cases moves with
    | step change next =>
      rcases decides with looks | ⟨entry, kind, overrides, now, isTask, decision⟩
      · obtain ⟨same, decides⟩ := looks ledger.tasker
        rw [same]
        exact stays (.inr decides) (.aside (.refl _))
      · cases decision
        cases stopping : ledger.tasker.stopping with
        | true =>
          simp only [Tasker.accept_of_stopping stopping]
          exact stays (.inl ⟨_, rfl⟩) (.aside (.refl _))
        | false =>
          obtain ⟨job, rfl, next, -, drawn, enqueues⟩ :=
            Tasker.accept_enqueues stopping entry kind overrides now
          exact stays (.inl ⟨_, rfl⟩) (.accept isTask stopping next drawn enqueues)
    | ask question next answer => exact stays (.inr (decides answer)) (.aside (.refl _))
  | stopping moves =>
    obtain ⟨phase, go, obeys⟩ := Obeys.moves obeys moves
    refine ⟨⟨tasker, Function.update ledger.stops index phase, ledger.work⟩, rfl, rfl, ?_, ?_, ?_,
      .stop go⟩
    · intro other differs
      exact Function.update_of_ne differs _ _
    · intro isOther
      rw [isOther] at go
      cases go
      exact Function.update_self _ _ _
    · simp only [Function.update_self]
      exact obeys
  | aside moves =>
    obtain ⟨other, steps⟩ := obeys
    cases moves with
    | step change next =>
      exact ⟨{ ledger with tasker := change ledger.tasker }, rfl, rfl, fun _ _ => rfl, id,
        ⟨other, (steps _).2⟩, .aside (steps _).1⟩
    | ask question next answer =>
      exact ⟨ledger, rfl, rfl, fun _ _ => rfl, id, ⟨other, steps answer⟩, .aside (.refl _)⟩

/-- **Each move of a session is a step of its ledger.** -/
theorem Conforms.step (conforms : session.Conforms ledger) (sound : ledger.Sound)
    (step : Step mover session session') :
    ∃ ledger', session'.Conforms ledger' ∧ ledger.Step mover ledger' := by
  cases step with
  | begin begins => exact conforms.begin begins
  | @call _ index call call' tasker found moves =>
    rw [← conforms.tasker] at moves
    obtain ⟨ledger', isTasker, work, others, unborn, obeys, step⟩ :=
      Call.In.moves (conforms.calls index call found) moves
    refine ⟨ledger', ⟨isTasker, ?_, ?_, ?_⟩, step⟩
    · intro other call'' found'
      rw [List.getElem?_set] at found'
      split at found'
      · rename_i isIndex
        split at found'
        · cases found'
          rw [← isIndex]
          exact obeys
        · cases found'
      · rename_i differs
        rw [others other (Ne.symm differs)]
        exact conforms.calls other call'' found'
    · intro other after
      rw [List.length_set] at after
      by_cases isIndex : other = index
      · rw [isIndex] at after ⊢
        exact unborn (conforms.later index after)
      · rw [others other isIndex]
        exact conforms.later other after
    · rw [work]
      exact conforms.worker
  | work moves =>
    rw [← conforms.tasker] at moves
    obtain ⟨phase, go, obeys⟩ := conforms.worker.moves moves
    exact ⟨⟨_, ledger.stops, phase⟩, ⟨rfl, conforms.calls, conforms.later, obeys⟩, .work go⟩
  | serve patience idle free =>
    have isFree : ledger.work = .free := by
      have held := sound.held
      rw [conforms.tasker, free] at held
      cases work : ledger.work with
      | free => rfl
      | holding id job =>
        rw [work] at held
        cases held
    refine ⟨ledger, ⟨conforms.tasker, conforms.calls, conforms.later, ?_⟩, .aside (.refl _)⟩
    rw [isFree]
    exact Tasker.serve_obeys patience
  | @crash _ resource next job asks current =>
    have holding : ledger.work = .holding job.1 job.2 := by
      have held := sound.held
      rw [conforms.tasker, current] at held
      cases work : ledger.work with
      | free =>
        rw [work] at held
        cases held
      | holding id job' =>
        rw [work] at held
        cases held
        rfl
    have go : WorkPhase.Go ledger.work ledger.tasker
        { ledger.tasker with runner := ledger.tasker.runner.finish job.1 .failed } .free := by
      rw [holding]
      exact .finish fun _ => nofun
    refine ⟨⟨_, ledger.stops, .free⟩, ⟨?_, conforms.calls, conforms.later, trivial⟩, .work go⟩
    simp only [conforms.tasker]

/-! ## Any number of moves -/

/-- **What the steps of sound ledgers preserve, sessions that lead to others
preserve.** -/
theorem Conforms.leads (conforms : session.Conforms ledger) (sound : ledger.Sound)
    (invariant : Ledger → Prop)
    (steps : ∀ mover before after, before.Sound → Ledger.Step mover before after →
      before.tasker.Upward after.tasker → invariant before → invariant after)
    (holds : invariant ledger) (leads : session.Leads session') :
    ∃ ledger', session'.Conforms ledger' ∧ ledger'.Sound ∧ invariant ledger' := by
  induction leads with
  | refl => exact ⟨ledger, conforms, sound, holds⟩
  | tail _ goes ih =>
    obtain ⟨between, conforms, sound, holds⟩ := ih
    obtain ⟨⟨mover, step⟩, upward⟩ := goes
    obtain ⟨ledger', conforms', step⟩ := conforms.step sound step
    rw [← conforms.tasker, ← conforms'.tasker] at upward
    exact ⟨ledger', conforms', sound.step step upward, steps _ _ _ sound step upward holds⟩

/-- Every session that a start leads to conforms to a sound ledger. -/
theorem conforms_of_start {settings : TaskerSettings} {defaults : NodeDefaults}
    (leads : (start settings defaults).Leads session) :
    ∃ ledger, session.Conforms ledger ∧ ledger.Sound := by
  obtain ⟨ledger, conforms, sound, -⟩ := (conforms_start settings defaults).leads
    (Ledger.sound_start settings defaults) (fun _ => True) (fun _ _ _ _ _ _ _ => trivial) trivial
    leads
  exact ⟨ledger, conforms, sound⟩

theorem kept_of_start {settings : TaskerSettings} {defaults : NodeDefaults}
    (leads : (start settings defaults).Leads session) : session.tasker.Kept := by
  obtain ⟨ledger, conforms, sound⟩ := conforms_of_start leads
  rw [← conforms.tasker]
  exact sound.kept

end Session

end ScreenPilot
