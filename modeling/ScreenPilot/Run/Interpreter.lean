import ScreenPilot.Run.Single
import ScreenPilot.Run.Traverse

/-!
# Interpreters

An interpreter carries out one request after the other and remembers what its walks have left.
Runs of one node neither look at what it remembers nor change it.
-/

set_option autoImplicit false

namespace ScreenPilot

/-- What an interpreter is asked for. -/
inductive RunRequest where
  | walk (entry : String)
  | recognition (entry : String)
  | action (entry : String) (box : Rect)

/-- Carries out a request; with what the interpreter remembers then. -/
def RunContext.serve (context : RunContext) (memory : Memory) :
    RunRequest → Engine.Acting (Memory × RunResult)
  | .walk entry => context.run memory entry
  | .recognition entry => do return (memory, ← context.recognizeOnce entry)
  | .action entry box => do return (memory, ← context.actOnce entry box)

end ScreenPilot
