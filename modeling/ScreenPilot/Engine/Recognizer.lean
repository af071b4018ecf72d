import ScreenPilot.Engine.Basic

/-!
# Recognizers

The stock recognizer hits directly on the whole frame or asks the plug-in that
the resource has under the name of the recognition: a kind of vision, or the
name a custom recognition gives. Another recognizer may take its place. A miss
is reported whenever a plug-in is missing or crashes.
-/

set_option autoImplicit false

namespace ScreenPilot

/-- What decides whether a node is in a frame. -/
inductive Recognizer where
  | stock (resource : Handle)
  | replaced (recognizer : Handle)
deriving DecidableEq

namespace Recognizer

open Engine

/-- The name of the plug-in that a recognition calls, unless it calls none. -/
def plugInName? : RecoParam → Option String
  | .directHit => none
  | .vision kind _ => some kind.name
  | .custom name _ => some name

/-- What the stock recognizer finds. -/
def findStock (resource : Handle) (frame : Frame) (param : RecoParam) :
    Acting (Option Recognition) :=
  match plugInName? param with
  | none => pure (some ⟨frame.bounds, .null⟩)
  | some name => do
    let plugIn : Option Handle ← .ask (Question.recognitionPlugIn resource name) .done
    match plugIn with
    | none => pure none
    | some plugIn =>
      let reply : Reply (Option Recognition) ←
        .ask (Question.analyze plugIn frame param.param) .done
      pure (reply.getD none)

/-- What a recognizer finds of a node in a frame. -/
def find (recognizer : Recognizer) (frame : Frame) (node : Node) :
    Acting (Option Recognition) :=
  match recognizer with
  | .stock resource => findStock resource frame node.recognition
  | .replaced recognizer => do
    let reply : Reply (Option Recognition) ←
      .ask (Question.recognize recognizer frame node) .done
    pure (reply.getD none)

end Recognizer

end ScreenPilot
