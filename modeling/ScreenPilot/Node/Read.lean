import ScreenPilot.Error
import ScreenPilot.Node.Basic

/-!
# Reading nodes

A node is read field by field into the node that its defaults make, so what a
definition does not mention keeps its default. Null stands for "not mentioned"
in flags, numbers, waits and the focus; a list of names is written as one name
or as an array of names.
-/

set_option autoImplicit false

namespace ScreenPilot

namespace Node

/-- A list of names, or one name for a list of one. -/
def readNames : Reads (List String) :=
  Decode.firstOf "OneOrMany"
    [fun value => (Decode.text value).map fun name => [name], Decode.list Decode.text]

/-- A field that null leaves as it is. -/
def nullable {β : Type} (key : String) (read : Reads β) (put : β → Node → Node) :
    FieldForm Node :=
  .of key .inArrays (Decode.optional read) fun part node =>
    match part with
    | none => node
    | some part => put part node

/-- A field that lists names. -/
def nameList (key : String) (put : List String → Node → Node) : FieldForm Node :=
  .of key .never readNames put

/-- The fields of a node definition, in the order of its array form. -/
def form : RecordForm Node where
  label := "struct NodeDef"
  isClosed := true
  fields :=
    [nullable "enabled" Decode.bool fun enabled node => { node with enabled },
     nullable "max_hit" Decode.uint32 fun maxHit node => { node with maxHit },
     nullable "is_sub" Decode.bool fun isSub node => { node with isSub },
     nameList "next" fun next node => { node with next },
     nameList "interrupt" fun interrupt node => { node with interrupt },
     nameList "on_error" fun onError node => { node with onError },
     nameList "checkpoint" fun labels node => { node with checkpoint := labelSet labels },
     nameList "jumpback" fun jumpback node => { node with jumpback },
     nullable "timeout" Decode.uint64 fun timeout node => { node with timeout },
     nullable "rate_limit" Decode.uint64 fun rateLimit node => { node with rateLimit },
     nullable "pre_delay" Decode.uint64 fun preDelay node => { node with preDelay },
     nullable "post_delay" Decode.uint64 fun postDelay node => { node with postDelay },
     nullable "pre_wait_freezes" WaitFreezes.read fun preWait node => { node with preWait },
     nullable "post_wait_freezes" WaitFreezes.read fun postWait node => { node with postWait },
     .of "recognition" .never RecoParam.read fun recognition node => { node with recognition },
     .of "action" .never ActionParam.read fun action node => { node with action },
     nullable "focus" Decode.anything fun focus node => { node with focus := some focus }]

/-- Reads the definition of a node. -/
def read (name : String) (defaults : NodeDefaults) : Reads Node :=
  form.read (ofDefaults name defaults) false

/-- The node a document defines under a name. -/
def ofJson (name : String) (value : Json) (defaults : NodeDefaults) : Outcome Node :=
  match read name defaults value with
  | .ok node => .ok node
  | .error cause => .error (.pipeline (.node name cause))

end Node

end ScreenPilot
