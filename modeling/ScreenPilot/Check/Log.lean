import ScreenPilot.Calendar
import ScreenPilot.Config.Settings
import ScreenPilot.Files.Access
import ScreenPilot.Files.Path

/-!
# The log file of the checker

With a directory for logs there is a log file for every day. It is made at the
start, and so are directories that the prefix of its name puts it in. Without
the directory for logs the checker fails; without the file it cannot go on.
-/

set_option autoImplicit false

namespace ScreenPilot

namespace Check

variable {σ : Type}

/-- The name of the log file of a day. -/
def logName (filePrefix : String) (day : CalendarDay) : String :=
  if filePrefix = "" then day.text else filePrefix ++ "." ++ day.text

/-- Makes the log file, and the directories above it if it cannot be made
without; whether it is there. -/
def makeLogFile (path : String) : Files.Using σ Bool := do
  match ← Files.append path "" with
  | .ok () => pure true
  | .error _ =>
    match Path.parent? path with
    | none => pure false
    | some directory =>
      match ← Files.makeDirectories directory with
      | .error _ => pure false
      | .ok () => return (← Files.append path "").isOk

/-- Makes the directory for logs and the log file, if there are to be any. A directory that was
read from a document is a text. -/
def prepareLog (settings : LogSettings) (day : CalendarDay) :
    Files.Using σ (Reply (Outcome Unit)) :=
  match settings.logDirText? with
  | none => pure (.returned (.ok ()))
  | some directory => do
    match ← Files.makeDirectories directory with
    | .error fault => pure (.returned (.error (.file fault)))
    | .ok () =>
      if ← makeLogFile (Path.join directory (logName settings.filePrefix day)) then
        pure (.returned (.ok ()))
      else pure .crashed

end Check

end ScreenPilot
