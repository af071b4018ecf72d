import ScreenPilot.Geometry
import ScreenPilot.Json.Union

/-!
# Parameters of recognitions and actions

How a node is recognized, what is done once it is, where an action touches and
how long to wait for a still screen, each with its form in a pipeline document.
The payload of a recognition or of a registered action is any JSON value, which
only its plug-in understands.
-/

set_option autoImplicit false

namespace ScreenPilot

/-! ## Recognition -/

/-- A kind of recognition that a vision plug-in of the same name carries out. -/
inductive VisionKind where
  | templateMatch
  | featureMatch
  | colorMatch
  | ocr
  | neuralNetworkClassify
  | neuralNetworkDetect
deriving DecidableEq

namespace VisionKind

def all : List VisionKind :=
  [.templateMatch, .featureMatch, .colorMatch, .ocr, .neuralNetworkClassify, .neuralNetworkDetect]

def name : VisionKind → String
  | .templateMatch => "TemplateMatch"
  | .featureMatch => "FeatureMatch"
  | .colorMatch => "ColorMatch"
  | .ocr => "OCR"
  | .neuralNetworkClassify => "NeuralNetworkClassify"
  | .neuralNetworkDetect => "NeuralNetworkDetect"

def ofName? (name : String) : Option VisionKind := all.find? fun kind => kind.name = name

end VisionKind

/-- How a node is recognized. -/
inductive RecoParam where
  /-- Always recognized, on the whole frame. -/
  | directHit
  | vision (kind : VisionKind) (param : Json)
  /-- By the plug-in registered under `name`. -/
  | custom (name : String) (param : Json)
deriving Inhabited

namespace RecoParam

/-- The name of the kind of recognition. -/
def kind : RecoParam → String
  | .directHit => "DirectHit"
  | .vision kind _ => kind.name
  | .custom _ _ => "Custom"

/-- The payload. -/
def param : RecoParam → Json
  | .directHit => .null
  | .vision _ param => param
  | .custom _ param => param

/-- The form of a recognition in a document. -/
def toJson : RecoParam → Json
  | .directHit => .object [("type", .string "DirectHit")]
  | .vision kind param => .object [("param", param), ("type", .string kind.name)]
  | .custom name param =>
    .object [("param", .object [("name", .string name), ("param", param)]),
      ("type", .string "Custom")]

/-- The names of the kinds. -/
def kinds : List String := ["DirectHit"] ++ VisionKind.all.map VisionKind.name ++ ["Custom"]

/-- The contents of a registered recognition. -/
def customForm : RecordForm (String × Json) where
  label := "struct RecoParam::Custom"
  isClosed := false
  fields :=
    [.of "name" .always Decode.text fun name part => (name, part.2),
     .of "param" .never Decode.anything fun param part => (part.1, param)]

/-- Reads the contents of a recognition of a kind. -/
def ofContents (kind : String) (contents : Option Json) : ReadResult RecoParam :=
  match VisionKind.ofName? kind with
  | some kind => Decode.someContents (fun param => .ok (.vision kind param)) contents
  | none =>
    if kind = "Custom" then
      (Decode.fieldContents "RecoParam::Custom" customForm ("", .null) contents).map
        fun (name, param) => .custom name param
    else Decode.noContents "RecoParam::DirectHit" .directHit contents

def read : Reads RecoParam := Decode.tagged "RecoParam" kinds ofContents

end RecoParam

/-! ## Targets -/

/-- Where an action touches. -/
inductive Target where
  /-- The recognized box. -/
  | own
  /-- The box that another node was last recognized in. -/
  | node (name : String)
  | fixed (rect : Rect)
deriving DecidableEq, Inhabited

namespace Target

/-- A target as it stands in a document. -/
inductive Written where
  | flag (value : Bool)
  | name (text : String)
  | rect (rect : Rect)

/-- The target that is meant; `false` means none. -/
def ofWritten : Written → ReadResult Target
  | .flag true => .ok .own
  | .flag false => .error (.refused "target must be true, a node name or [x, y, w, h]")
  | .name text => .ok (.node text)
  | .rect rect => .ok (.fixed rect)

def read : Reads Target := fun value => do
  ofWritten (← Decode.firstOf "RawTarget"
    [fun value => (Decode.bool value).map .flag,
     fun value => (Decode.text value).map .name,
     fun value => (Rect.read value).map .rect] value)

end Target

/-! ## Actions -/

/-- What is done once a node is recognized; durations in milliseconds. -/
inductive ActionParam where
  | doNothing
  | click (target : Target)
  | longPress (target : Target) (duration : UInt64)
  | swipe (start finish : Target) (duration : UInt64)
  | keys (codes : List Int32)
  | inputText (text : String)
  | startApp (package : String)
  | stopApp (package : String)
  /-- The action registered under `name`. -/
  | custom (name : String) (param : Json) (target : Target)
deriving Inhabited

namespace ActionParam

/-- The name of the kind of action. -/
def kind : ActionParam → String
  | .doNothing => "DoNothing"
  | .click _ => "Click"
  | .longPress _ _ => "LongPress"
  | .swipe _ _ _ => "Swipe"
  | .keys _ => "Key"
  | .inputText _ => "InputText"
  | .startApp _ => "StartApp"
  | .stopApp _ => "StopApp"
  | .custom _ _ _ => "Custom"

/-- The names of the kinds. -/
def kinds : List String :=
  ["DoNothing", "Click", "LongPress", "Swipe", "Key", "InputText", "StartApp", "StopApp", "Custom"]

/-- Everything the contents of an action may say. -/
structure Contents where
  target : Target
  start : Target
  finish : Target
  duration : UInt64
  codes : List Int32
  text : String
  package : String
  name : String
  param : Json
deriving Inhabited

namespace Contents

/-- The form of contents with some of the fields. -/
def form (fields : List (FieldForm Contents)) : RecordForm Contents := ⟨"", fields, false⟩

def targetField : FieldForm Contents :=
  .of "target" .never Target.read fun target contents => { contents with target }

def startField : FieldForm Contents :=
  .of "begin" .never Target.read fun start contents => { contents with start }

def finishField : FieldForm Contents :=
  .of "end" .always Target.read fun finish contents => { contents with finish }

def durationField : FieldForm Contents :=
  .of "duration" .never Decode.uint64 fun duration contents => { contents with duration }

def codesField : FieldForm Contents :=
  .of "keys" .always (Decode.list Decode.int32) fun codes contents => { contents with codes }

def textField : FieldForm Contents :=
  .of "text" .always Decode.text fun text contents => { contents with text }

def packageField : FieldForm Contents :=
  .of "package" .always Decode.text fun package contents => { contents with package }

def nameField : FieldForm Contents :=
  .of "name" .always Decode.text fun name contents => { contents with name }

def paramField : FieldForm Contents :=
  .of "param" .never Decode.anything fun param contents => { contents with param }

/-- Reads contents with some of the fields; `duration` is the one that holds
when none is given. -/
def read (kind : String) (fields : List (FieldForm Contents)) (duration : UInt64)
    (make : Contents → ActionParam) (contents : Option Json) : ReadResult ActionParam :=
  (Decode.fieldContents ("ActionParam::" ++ kind) (form fields)
    { (default : Contents) with duration, param := .null } contents).map make

end Contents

/-- Duration of a long press that does not give one. -/
def longPressMs : UInt64 := 1000

/-- Duration of a swipe that does not give one. -/
def swipeMs : UInt64 := 200

open Contents in
/-- Reads the contents of an action of a kind. -/
def ofContents (kind : String) : Option Json → ReadResult ActionParam :=
  match kind with
  | "Click" => read kind [targetField] 0 fun given => .click given.target
  | "LongPress" =>
    read kind [targetField, durationField] longPressMs
      fun given => .longPress given.target given.duration
  | "Swipe" =>
    read kind [startField, finishField, durationField] swipeMs
      fun given => .swipe given.start given.finish given.duration
  | "Key" => read kind [codesField] 0 fun given => .keys given.codes
  | "InputText" => read kind [textField] 0 fun given => .inputText given.text
  | "StartApp" => read kind [packageField] 0 fun given => .startApp given.package
  | "StopApp" => read kind [packageField] 0 fun given => .stopApp given.package
  | "Custom" =>
    read kind [nameField, paramField, targetField] 0
      fun given => .custom given.name given.param given.target
  | _ => Decode.noContents "ActionParam::DoNothing" .doNothing

def read : Reads ActionParam := Decode.tagged "ActionParam" kinds ofContents

end ActionParam

/-! ## Waiting for a still screen -/

/-- How to wait until the screen stops changing, in milliseconds. -/
structure WaitFreezes where
  /-- How long a frame has to stay the same; nothing is waited for if zero. -/
  time : UInt64
  /-- When to go on although the screen still changes. -/
  timeout : UInt64
  /-- The pause between two captures. -/
  rateLimit : UInt64
deriving DecidableEq

namespace WaitFreezes

/-- A wait for so long a stillness. -/
def lasting (time : UInt64) : WaitFreezes := ⟨time, 20000, 1000⟩

/-- No wait. -/
instance : Inhabited WaitFreezes := ⟨lasting 0⟩

/-- There is something to wait for. -/
def isEnabled (wait : WaitFreezes) : Bool := wait.time ≠ 0

def form : RecordForm WaitFreezes where
  label := "struct variant RawWaitFreezes::Full"
  isClosed := false
  fields :=
    [.of "time" .never Decode.uint64 fun time wait => { wait with time },
     .of "timeout" .never Decode.uint64 fun timeout wait => { wait with timeout },
     .of "rate_limit" .never Decode.uint64 fun rateLimit wait => { wait with rateLimit }]

def read : Reads WaitFreezes :=
  Decode.firstOf "RawWaitFreezes"
    [fun value => (Decode.uint64 value).map lasting, form.readObject default form.label]

end WaitFreezes

end ScreenPilot
