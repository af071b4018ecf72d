import ScreenPilot.Check.Report
import Std.Time.DateTime.Timestamp

/-!
# The checker as a program

Answers the questions of the checker from the file system, prints what it
reports and ends with its code.
-/

set_option autoImplicit false

namespace ScreenPilot

namespace Check

/-- What came of an action, or the words in which the system refused it. -/
def attempt {α : Type} (action : IO α) : IO (Except FileFault α) := do
  try return .ok (← action)
  catch refusal => return .error (.other (toString refusal))

/-- Whether a path leads to a directory. -/
def isDirectory (path : String) : IO Bool := do
  match ← attempt do (← IO.FS.realPath path).readDir with
  | .ok _ => return true
  | .error _ => return false

/-- The text of a file. -/
def readText (path : String) : IO (Except FileFault String) := do
  match ← attempt (IO.FS.readBinFile path) with
  | .error fault => return .error fault
  | .ok content =>
    match String.fromUTF8? content with
    | none => return .error .notText
    | some text => return .ok text

/-- Answers a question from the file system. -/
def answerFromFiles : (question : Files.Question) → IO (Files.Answer question)
  | .isDirectory path => isDirectory path
  | .isPresent path => do return (← isDirectory path) || (← readText path).isOk
  | .names directory => attempt do
    return (← (← IO.FS.realPath directory).readDir).toList.map fun entry => entry.fileName
  | .text path => readText path
  | .makeDirectories path => attempt (IO.FS.createDirAll path)
  | .write path text => attempt (IO.FS.writeFile path text)
  | .append path text => attempt (IO.FS.withFile path .append fun file => file.putStr text)

/-- Answers a question of a load. -/
def answerLoad : (question : Resource.LoadQuestion) → IO (Resource.LoadAnswer question)
  | .file question => answerFromFiles question
  | .nextPath _ => pure ()

/-- The directory for data of the one who calls the program. -/
def dataDirectory? : IO (Option String) := do
  match ← IO.getEnv "XDG_DATA_HOME" with
  | some directory =>
    if Path.isAbsolute directory then return some directory else usualDirectory
  | none => usualDirectory
where
  usualDirectory : IO (Option String) := do
    return (← IO.getEnv "HOME").map fun home => Path.join home ".local/share"

/-- The day it is, in universal time. -/
def today : IO CalendarDay := do
  return .ofDays ((← Std.Time.Timestamp.now).toSecondsSinceUnixEpoch.val / 86400)

end Check

end ScreenPilot

/-- Checks the pipelines that the arguments name. -/
def main (arguments : List String) : IO UInt32 := do
  let resource ← IO.mkRef (default : ScreenPilot.Resource)
  let usual := (← ScreenPilot.Check.dataDirectory?).map ScreenPilot.Check.usualConfig
  let ending ← (ScreenPilot.Check.run usual (← ScreenPilot.Check.today) arguments).run
    (fun change => resource.modifyGet fun state => (state, change state))
    ScreenPilot.Check.answerLoad
  IO.print ending.output
  return ending.code
