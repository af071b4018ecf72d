import ScreenPilot.Proofs.Activity.Differences
import ScreenPilot.Proofs.Run.Ports
import ScreenPilot.Proofs.Run.Returns

/-!
# Runs whose collaborators crash

A recognizer or a plug-in that crashes has found nothing, and an action or a wait that
crashes has failed. All that a run is made of goes on in the same way after a crash and
after the answer that mends it (`overlooks`); so a run takes the same course, whichever of
its crashes are mended (`run_withstands`). The answer is mended where the crash happens, or
by the port of the run in which it happens, such as the stock actuator on a device that
crashes; what was done before the crash stays done.

That the screen cannot be captured is no such crash: it ends the run.
-/

set_option autoImplicit false

namespace ScreenPilot

/-- A reply is what it was, or it is what is said instead of a crash. -/
def Reply.Mends {α : Type} (instead : α) (reply other : Reply α) : Prop :=
  other = reply ∨ reply = .crashed ∧ other = .returned instead

theorem Reply.Mends.trans {α : Type} {instead : α} {first second third : Reply α}
    (mends : first.Mends instead second) (again : second.Mends instead third) :
    first.Mends instead third := by
  rcases mends with rfl | ⟨rfl, rfl⟩
  · exact again
  · rcases again with rfl | ⟨same, -⟩
    · exact .inr ⟨rfl, rfl⟩
    · cases same

/-- Who replaces a crash by the same value does not notice that it is mended. -/
theorem Reply.Mends.getD {α : Type} {instead : α} {reply other : Reply α}
    (mends : reply.Mends instead other) : other.getD instead = reply.getD instead := by
  rcases mends with rfl | ⟨rfl, rfl⟩ <;> rfl

namespace Engine

/-- An answer is what it was, or mends a crash of a recognizer, an actuator or a plug-in. -/
def Mends : (question : Question) → Answer question → Answer question → Prop
  | .recognize _ _ _ => Reply.Mends none
  | .analyze _ _ _ => Reply.Mends none
  | .act _ _ _ => Reply.Mends false
  | .awaitStill _ _ _ => Reply.Mends false
  | .perform _ _ _ _ _ => Reply.Mends false
  | _ => fun answer other => other = answer

theorem Mends.refl (question : Question) (answer : Answer question) :
    Mends question answer answer := by
  cases question with
  | recognize | analyze | act | awaitStill | perform => exact .inl rfl
  | _ => rfl

/-- The answer that mends a crash. -/
def mend : (question : Question) → Answer question → Answer question
  | .recognize _ _ _, reply => Reply.returned (reply.getD none)
  | .analyze _ _ _, reply => Reply.returned (reply.getD none)
  | .act _ _ _, reply => Reply.returned (reply.getD false)
  | .awaitStill _ _ _, reply => Reply.returned (reply.getD false)
  | .perform _ _ _ _ _, reply => Reply.returned (reply.getD false)
  | _, answer => answer

theorem mends_mend (question : Question) (answer : Answer question) :
    Mends question answer (mend question answer) := by
  have reply : ∀ {α : Type} (instead : α) (reply : Reply α),
      reply.Mends instead (.returned (reply.getD instead)) := by
    intro α instead reply
    cases reply with
    | returned value => exact .inl rfl
    | crashed => exact .inr ⟨rfl, rfl⟩
  cases question with
  | recognize | analyze | act | awaitStill | perform => exact reply _ _
  | _ => rfl

theorem Mends.trans {question : Question} {first second third : Answer question}
    (mends : Mends question first second) (again : Mends question second third) :
    Mends question first third := by
  cases question with
  | recognize | analyze | act | awaitStill | perform => exact Reply.Mends.trans mends again
  | _ => exact Eq.trans again mends

end Engine

open Engine Activity

/-! ## Runs -/

/-- What is asked of no recognizer, actuator or plug-in is not mended. -/
theorem overlooks_ask {question : Question}
    (own : ∀ answer other, Mends question answer other → other = answer) :
    (.ask question .done : Acting (Answer question)).Overlooks Mends :=
  .ask own fun _ => trivial

/-- **All that a run is made of goes on in the same way after a crash and after the answer that
mends it.** -/
theorem overlooks : KeptByPorts fun _ activity => activity.Overlooks Mends where
  done _ := trivial
  bind := .bind
  reads _ _ := trivial
  count _ _ := trivial
  step _ _ _ := trivial
  now := overlooks_ask fun _ _ same => same
  rest _ _ := overlooks_ask fun _ _ same => same
  frame _ := overlooks_ask fun _ _ same => same
  send _ _ := overlooks_ask fun _ _ same => same
  recognitionPlugIn _ _ := overlooks_ask fun _ _ same => same
  actionPlugIn _ _ := overlooks_ask fun _ _ same => same
  analyze _ _ _ := fun _ => ⟨trivial, fun _ mends => congrArg _ mends.getD⟩
  perform _ _ _ _ _ := fun _ => ⟨trivial, fun _ mends => congrArg _ mends.getD⟩
  recognize _ _ _ := fun _ => ⟨trivial, fun _ mends => congrArg _ mends.getD⟩
  act _ _ _ := fun _ => ⟨trivial, fun _ mends => congrArg _ mends.getD⟩
  awaitStill _ _ _ := fun _ => ⟨trivial, fun _ mends =>
    congrArg (fun good => Activity.done (some good)) mends.getD⟩

namespace RunContext

variable (context : RunContext)

section Ports

variable {ω : Type} {surroundings other : Surroundings outside Engine ω}
  (resembles : surroundings.Resembles other Mends)
include resembles

/-- What overlooks that crashes are mended comes to the same answer. -/
theorem resemble_of_overlooks {question : Question} {activity : Acting (Option (Answer question))}
    (overlooks : activity.Overlooks Mends) (before : Engine × ω) :
    Option.Rel (Mends question) (surroundings.carry activity before).1
        (other.carry activity before).1 ∧
      (other.carry activity before).2 = (surroundings.carry activity before).2 := by
  rw [overlooks.carry resembles]
  refine ⟨?_, rfl⟩
  cases (surroundings.carry activity before).1 with
  | none => exact .none
  | some answer => exact .some (.refl question answer)

/-- A question that is passed on is answered alike, or the crash is mended. -/
theorem resemble_of_asked (question : Question) (before : Engine × ω) :
    Option.Rel (Mends question)
        (surroundings.carry (some <$> (.ask question .done : Acting (Answer question))) before).1
        (other.carry (some <$> (.ask question .done : Acting (Answer question))) before).1 ∧
      (other.carry (some <$> (.ask question .done : Acting (Answer question))) before).2 =
        (surroundings.carry (some <$> (.ask question .done : Acting (Answer question))) before).2 :=
  ⟨.some (resembles.answer question before), Prod.ext rfl (resembles.world question before)⟩

/-- **In surroundings in which crashes are mended, the ports of a run come to the same, or
to answers that are mended.** -/
theorem port_resembles : Handlers.Resemble context.port surroundings context.port other Mends := by
  intro question before
  cases question with
  | recognize recognizer frame node =>
    exact resemble_of_overlooks resembles
      ((overlooks.find context.recognizer frame node).bind fun _ => .pure _) before
  | act number hit node =>
    cases acts : context.actuator with
    | stock controller resource =>
      refine resemble_of_overlooks resembles (.bind ?_ fun _ => .pure _) before
      rw [acts]
      exact overlooks.actStock controller resource hit node.action
    | replaced actuator =>
      have asks : context.port (.act number hit node) =
          some <$> .ask (Question.act actuator hit node) .done := by
        unfold port
        rw [acts]
        rfl
      rw [asks]
      exact resemble_of_asked resembles (.act actuator hit node) before
  | awaitStill number wait node =>
    cases acts : context.actuator with
    | stock controller resource =>
      refine resemble_of_overlooks resembles (.bind ?_ fun _ => .pure _) before
      rw [acts]
      exact overlooks.awaitStillStock _ _ controller wait
    | replaced actuator =>
      have asks : context.port (.awaitStill number wait node) =
          some <$> .ask (Question.awaitStill actuator wait node) .done := by
        unfold port
        rw [acts]
        exact Actuator.reply_awaitStill_replaced actuator _ _ wait node
      rw [asks]
      exact resemble_of_asked resembles (.awaitStill actuator wait node) before
  | _ => exact resemble_of_asked resembles _ before

end Ports

/-- In other surroundings and with other ports, a run takes the same course: it calls the
same, leaves the same engine and the same world, in which the same was asked, and comes to
the same, unless it is left open. -/
structure SameCourse {ω α : Type} (surroundings other : Surroundings outside Engine ω)
    (ports : Handlers outside Engine) (isOpen : α → Prop) (activity caller : Acting α)
    (before : Engine × ω × List Question) : Prop where
  calls : other.logging.calls ports caller before =
    surroundings.logging.calls context.port caller before
  after : (other.logging.carry (caller.handle ports) before).2 =
    (surroundings.logging.carry activity before).2
  value : (other.logging.carry (caller.handle ports) before).1 =
      some (surroundings.logging.carry activity before).1 ∨
    (other.logging.carry (caller.handle ports) before).1 = none ∧
      isOpen (surroundings.logging.carry activity before).1

section Withstands

variable {ω α : Type} {surroundings other : Surroundings outside Engine ω}
  {ports : Handlers outside Engine} (resembles : surroundings.Resembles other Mends)
  (mended : Handlers.Resemble context.port other.logging ports other.logging Mends)
include resembles mended

/-- What overlooks crashes and is handled by the ports of a run withstands crashes. -/
theorem sameCourse {isOpen : α → Prop} {activity caller : Acting α}
    (handled : Handled context.port isOpen activity caller)
    (overlooks : caller.Overlooks Mends) (before : Engine × ω × List Question) :
    context.SameCourse surroundings other ports isOpen activity caller before := by
  have logged := resembles.logging
  have alike : Handlers.Resemble context.port surroundings.logging ports other.logging Mends :=
    (port_resembles context logged).trans mended fun _ _ _ _ => Mends.trans
  have course := overlooks.carry_handle logged.meanwhile alike before
  obtain ⟨after, value⟩ := handled.carry surroundings.logging before
  exact ⟨overlooks.calls logged.meanwhile alike before, course ▸ after, course ▸ value⟩

/-- **A run takes the same course, whichever crashes of recognizers, actuators and plug-ins
are mended.** -/
theorem run_withstands (before : Engine × ω × List Question) :
    (∀ memory entry, context.SameCourse surroundings other ports (·.2 = .unfinished)
      (context.run memory entry) (context.ported.run memory entry) before) ∧
    (∀ entry, context.SameCourse surroundings other ports (· = .unfinished)
      (context.recognizeOnce entry) (context.ported.recognizeOnce entry) before) ∧
    ∀ entry box, context.SameCourse surroundings other ports (· = .unfinished)
      (context.actOnce entry box) (context.ported.actOnce entry box) before := by
  refine ⟨fun memory entry => ?_, fun entry => ?_, fun entry box => ?_⟩
  · exact sameCourse context resembles mended (context.handled.run memory entry)
      (overlooks.run context.ported memory entry) before
  · exact sameCourse context resembles mended (context.handled.recognizeOnce entry)
      (overlooks.recognizeOnce context.ported entry) before
  · exact sameCourse context resembles mended (context.handled.actOnce entry box)
      (overlooks.actOnce context.ported entry box) before

end Withstands

/-- The ports of a run with all their crashes mended. -/
def mendedPort : Handlers outside Engine :=
  fun question => Option.map (mend question) <$> context.port question

/-- What a port did before it crashed stays done when the crash is mended. -/
theorem mendedPort_resembles {ω : Type} (surroundings : Surroundings outside Engine ω) :
    Handlers.Resemble context.port surroundings context.mendedPort surroundings Mends := by
  intro question before
  have course : surroundings.carry (context.mendedPort question) before =
      ((surroundings.carry (context.port question) before).1.map (mend question),
        (surroundings.carry (context.port question) before).2) :=
    surroundings.carry_bind (context.port question) _ before
  rw [course]
  refine ⟨?_, rfl⟩
  cases (surroundings.carry (context.port question) before).1 with
  | none => exact .none
  | some answer => exact .some (mends_mend question answer)

/-- Every node is recognized, and every action crashes. -/
def crashing : Surroundings outside Engine Unit where
  meanwhile := standstill.meanwhile
  answer
    | .act _ _ _, _ => (Reply.crashed, ())
    | question, before => standstill.answer question before

/-- Every node is recognized, and every action fails. -/
def failing : Surroundings outside Engine Unit where
  meanwhile := standstill.meanwhile
  answer
    | .act _ _ _, _ => (Reply.returned false, ())
    | question, before => standstill.answer question before

theorem crashing_resembles : crashing.Resembles failing Mends where
  meanwhile := rfl
  answer question before := by
    cases question with
    | act => exact .inr ⟨rfl, rfl⟩
    | _ => exact .refl _ _
  world question before := by cases question <;> rfl

/-- A run whose only action crashes fails, as if the action had failed. -/
theorem hasty_withstands : crashing.Resembles failing Mends ∧
    (crashing.carry (hasty.run .empty "A") (posted, ())).1.2 =
      .ended (.failed (.unhandled .actionFailed)) ∧
    hasty.SameCourse crashing failing hasty.mendedPort (·.2 = .unfinished)
      (hasty.run .empty "A") (hasty.ported.run .empty "A") (posted, (), []) := by
  have withstands := hasty.run_withstands crashing_resembles
    (hasty.mendedPort_resembles failing.logging) (posted, (), [])
  have fails : (crashing.carry (hasty.run .empty "A") (posted, ())).1.2 =
      .ended (.failed (.unhandled .actionFailed)) := by
    unfold run walkOn
    rfl
  exact ⟨crashing_resembles, fails, withstands.1 .empty "A"⟩

end RunContext

end ScreenPilot
