/-!
# Activities

An activity is a program that shares its state with others. It changes the
state in single steps, each of which happens at once, and it asks questions of
the outside and goes on with the answers. Between any two steps, and while a
question is open, others may change the shared state; so an activity knows only
what a step or an answer has told it.

An activity is data. `Activity.run` carries it out alone; statements about
activities quantify over the answers and over the changes that others make.
-/

set_option autoImplicit false

namespace ScreenPilot

/-- A thing outside the program, known by its number. -/
abbrev Handle := Nat

/-- What came of a call: a value, or a crash. -/
inductive Reply (α : Type) where
  | returned (value : α)
  | crashed

/-- The value of a call, or another one in its place if it crashed. -/
def Reply.getD {α : Type} (reply : Reply α) (instead : α) : α :=
  match reply with
  | .returned value => value
  | .crashed => instead

/-- What may be asked of the outside, and what answers there are. -/
structure Interface where
  Question : Type
  Answer : Question → Type

/-- An activity that asks by an interface, shares a state of type `σ` and ends
with a value of type `α`. -/
inductive Activity (interface : Interface) (σ α : Type) : Type where
  | done (value : α)
  /-- Changes the state at once and goes on, knowing the state before. -/
  | step (change : σ → σ) (next : σ → Activity interface σ α)
  | ask (question : interface.Question)
      (next : interface.Answer question → Activity interface σ α)

namespace Activity

variable {interface : Interface} {σ τ α β : Type}

/-- One activity after the other. -/
def bind (first : Activity interface σ α) (next : α → Activity interface σ β) :
    Activity interface σ β :=
  match first with
  | .done value => next value
  | .step change rest => .step change fun state => (rest state).bind next
  | .ask question rest => .ask question fun answer => (rest answer).bind next

instance : Monad (Activity interface σ) where
  pure := .done
  bind := bind

/-- The state as it is now. -/
def read : Activity interface σ σ := .step id .done

/-- A part of the state as it is now. -/
def reads (part : σ → α) : Activity interface σ α := .step id fun state => .done (part state)

/-- A change of the state. -/
def modify (change : σ → σ) : Activity interface σ Unit := .step change fun _ => .done ()

/-- A change of the state that has a result. -/
def transact (act : σ → α × σ) : Activity interface σ α :=
  .step (fun state => (act state).2) fun state => .done (act state).1

/-- A question. -/
def request (question : interface.Question) : Activity interface σ (interface.Answer question) :=
  .ask question .done

/-- The activity on a state of which its own state is a part. -/
def within (get : τ → σ) (put : σ → τ → τ) : Activity interface σ α → Activity interface τ α
  | .done value => .done value
  | .step change next =>
    .step (fun whole => put (change (get whole)) whole) fun whole =>
      (next (get whole)).within get put
  | .ask question next => .ask question fun answer => (next answer).within get put

/-- The activity with its questions put by a wider interface. -/
def widen {wider : Interface} (embed : interface.Question → wider.Question)
    (back : (question : interface.Question) →
      wider.Answer (embed question) → interface.Answer question) :
    Activity interface σ α → Activity wider σ α
  | .done value => .done value
  | .step change next => .step change fun state => (next state).widen embed back
  | .ask question next =>
    .ask (embed question) fun answer => (next (back question answer)).widen embed back

/-- Carries an activity out in a monad that holds the state and answers. -/
def run {m : Type → Type} [Monad m] (exchange : (σ → σ) → m σ)
    (answer : (question : interface.Question) → m (interface.Answer question)) :
    Activity interface σ α → m α
  | .done value => pure value
  | .step change next => exchange change >>= fun state => (next state).run exchange answer
  | .ask question next => answer question >>= fun reply => (next reply).run exchange answer

end Activity

end ScreenPilot
