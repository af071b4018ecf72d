import ScreenPilot.Node.Read
import ScreenPilot.Json.Reader
import Std.Data.ExtTreeMap.Lemmas

/-!
# Pipeline graphs

A graph is a set of nodes, each under its own name. Its edges are the names
that nodes list; nothing keeps a name from being one that no node has. A
document is a graph written as an object whose keys are the names, apart from
keys that begin with a dollar sign, which say something about the document.
-/

set_option autoImplicit false

namespace ScreenPilot

/-- Nodes under their names. -/
structure Graph where
  nodes : Std.ExtTreeMap String Node
  /-- A node stands under its own name. -/
  named : ∀ (name : String) (node : Node), nodes[name]? = some node → node.name = name

namespace Graph

/-- The graph without nodes. -/
def empty : Graph := ⟨∅, by simp⟩

instance : Inhabited Graph := ⟨empty⟩

/-- The graph with one more node, in place of the one with its name. -/
def insert (graph : Graph) (node : Node) : Graph where
  nodes := graph.nodes.insert node.name node
  named := by
    intro name found same
    rw [Std.ExtTreeMap.getElem?_insert] at same
    split at same
    · rename_i equal
      cases same
      exact Std.LawfulEqOrd.eq_of_compare equal
    · exact graph.named name found same

/-- The node with a name. -/
def find? (graph : Graph) (name : String) : Option Node := graph.nodes[name]?

/-- Whether a node has the name. -/
def contains (graph : Graph) (name : String) : Bool := graph.nodes.contains name

/-- The number of nodes. -/
def size (graph : Graph) : Nat := graph.nodes.size

/-- The names of the nodes, in order. -/
def names (graph : Graph) : List String := graph.nodes.keys

/-- The nodes in the order of their names. -/
def toList (graph : Graph) : List Node := graph.nodes.values

/-- The nodes of both graphs; of two with one name, that of the overrides. -/
def merged (base overrides : Graph) : Graph where
  nodes := base.nodes ∪ overrides.nodes
  named := by
    intro name found same
    rw [Std.ExtTreeMap.getElem?_union] at same
    cases replacement : overrides.nodes[name]? with
    | none =>
      rw [replacement] at same
      exact base.named name found same
    | some node =>
      rw [replacement] at same
      cases same
      exact overrides.named name _ replacement

/-! ## Documents -/

/-- The key says something about the document and is no node. -/
def isRemark (key : String) : Bool := key.startsWith "$"

/-- The graph with what an entry of a document defines. -/
def addEntry (defaults : NodeDefaults) (graph : Graph) (entry : String × Json) :
    Outcome Graph :=
  if isRemark entry.1 then .ok graph
  else (Node.ofJson entry.1 entry.2 defaults).map graph.insert

/-- The graph of a document. -/
def ofJson (defaults : NodeDefaults) : Json → Outcome Graph
  | .object entries => entries.foldlM (addEntry defaults) empty
  | _ => .error (.pipeline .notObject)

/-- The graph of the text of a document. -/
def ofText (defaults : NodeDefaults) (text : String) : Outcome Graph :=
  match Json.parse? text with
  | none => .error .json
  | some value => ofJson defaults value

end Graph

end ScreenPilot
