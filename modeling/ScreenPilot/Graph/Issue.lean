import ScreenPilot.Graph.Basic

/-!
# Checking graphs

What is wrong with the names that the nodes of a graph list. A name that no
node has ends every run that reaches it; the other issues only make a run
behave in a way that was hardly meant.
-/

set_option autoImplicit false

namespace ScreenPilot

/-- What is wrong with a graph. -/
inductive GraphIssue where
  /-- The node lists a name that no node has. -/
  | unknownReference (node target : String)
  /-- The node lists a name among its next nodes and among its interrupts. -/
  | overlap (node name : String)
  /-- The node goes back to a label that no node has. -/
  | undeclaredLabel (node label : String)
deriving DecidableEq

namespace GraphIssue

/-- A run that reaches the issue fails. -/
def isFatal : GraphIssue → Bool
  | .unknownReference _ _ => true
  | .overlap _ _ | .undeclaredLabel _ _ => false

/-- The wording of an issue. -/
def message : GraphIssue → String
  | .unknownReference node target =>
    "'" ++ node ++ "' references unknown node '" ++ target ++ "'"
  | .overlap node name =>
    "'" ++ node ++ "' lists '" ++ name ++
      "' in both next and interrupt (first occurrence wins)"
  | .undeclaredLabel node label =>
    "'" ++ node ++ "' jumps back to checkpoint '" ++ label ++ "' which no node declares"

end GraphIssue

namespace Graph

/-- A node of the graph has the label. -/
def declares (graph : Graph) (label : String) : Bool :=
  graph.toList.any fun node => node.checkpoint.contains label

/-- What is wrong with one node: first its references, then its overlaps, then
its labels, each in the order the node lists them. -/
def issuesOf (graph : Graph) (node : Node) : List GraphIssue :=
  (node.references.filter fun target => ¬ graph.contains target).map
      (.unknownReference node.name) ++
    (node.next.filter fun name => name ∈ node.interrupt).map (.overlap node.name) ++
    (node.jumpback.filter fun label => ¬ graph.declares label).map (.undeclaredLabel node.name)

/-- Everything that is wrong with a graph, node by node in the order of names. -/
def issues (graph : Graph) : List GraphIssue := graph.toList.flatMap graph.issuesOf

end Graph

end ScreenPilot
