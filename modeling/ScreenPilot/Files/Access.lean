import ScreenPilot.Activity
import ScreenPilot.Error

/-!
# Access to files

What the program asks of the file system. Any question may be refused, and
nothing keeps the files from changing between two questions.
-/

set_option autoImplicit false

namespace ScreenPilot

namespace Files

/-- A question to the file system. -/
inductive Question where
  | isDirectory (path : String)
  | isPresent (path : String)
  /-- The names in a directory, in any order. -/
  | names (directory : String)
  /-- The whole text of a file. -/
  | text (path : String)
  /-- Make a directory, with those above it. -/
  | makeDirectories (path : String)
  /-- Write a text over whatever the file holds. -/
  | write (path text : String)
  /-- Write a text behind whatever the file holds; it is made if there is none. -/
  | append (path text : String)

/-- The answers to a question. -/
def Answer : Question → Type
  | .isDirectory _ => Bool
  | .isPresent _ => Bool
  | .names _ => Except FileFault (List String)
  | .text _ => Except FileFault String
  | .makeDirectories _ => Except FileFault Unit
  | .write _ _ => Except FileFault Unit
  | .append _ _ => Except FileFault Unit

/-- The file system as seen by an activity. -/
def access : Interface := ⟨Question, Answer⟩

variable {σ : Type}

/-- An activity that uses files and shares a state. -/
abbrev Using (σ α : Type) : Type := Activity access σ α

def isDirectory (path : String) : Using σ Bool := .ask (Question.isDirectory path) .done

def isPresent (path : String) : Using σ Bool := .ask (Question.isPresent path) .done

def names (directory : String) : Using σ (Except FileFault (List String)) :=
  .ask (Question.names directory) .done

def text (path : String) : Using σ (Except FileFault String) := .ask (Question.text path) .done

def makeDirectories (path : String) : Using σ (Except FileFault Unit) :=
  .ask (Question.makeDirectories path) .done

def write (path text : String) : Using σ (Except FileFault Unit) :=
  .ask (Question.write path text) .done

def append (path text : String) : Using σ (Except FileFault Unit) :=
  .ask (Question.append path text) .done

end Files

end ScreenPilot
