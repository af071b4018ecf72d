import Std.Data.ExtTreeMap.Basic

/-!
# Identities

Tasks, visited nodes, recognition attempts and executed actions are numbered by
one source, each kind with a counter of its own. The counters start a hundred
million apart, so that a number in a log line tells its kind for as long as no
kind has used up its hundred million. Zero is the number of nothing.
-/

set_option autoImplicit false

namespace ScreenPilot

/-- What an identity is of. -/
inductive IdKind where
  | task
  | node
  | reco
  | action
deriving DecidableEq, Repr

/-- The name of the kind in a shown identity. -/
def IdKind.label : IdKind → String
  | .task => "TaskId"
  | .node => "NodeId"
  | .reco => "RecoId"
  | .action => "ActionId"

/-- The number below the first one the kind is given. -/
def IdKind.base : IdKind → UInt64
  | .task => 200000000
  | .node => 300000000
  | .reco => 400000000
  | .action => 500000000

/-- An identity of one kind. -/
structure Id (kind : IdKind) where
  number : UInt64
deriving DecidableEq, Repr

/-- Identity of a posted task. -/
abbrev TaskId := Id .task
/-- Identity of one visit of a node. -/
abbrev NodeId := Id .node
/-- Identity of one recognition attempt. -/
abbrev RecoId := Id .reco
/-- Identity of one executed action. -/
abbrev ActionId := Id .action

namespace Id

variable {kind : IdKind}

/-- The identity of nothing. -/
def invalid : Id kind := ⟨0⟩

instance : Inhabited (Id kind) := ⟨invalid⟩

/-- The identity is of something. -/
def isValid (id : Id kind) : Bool := id ≠ invalid

/-- The identity as it is shown. -/
def text (id : Id kind) : String :=
  kind.label ++ "(" ++ (if id.isValid then toString id.number else "INVALID") ++ ")"

instance : Ord (Id kind) := ⟨fun left right => compare left.number.toNat right.number.toNat⟩

instance : Std.TransOrd (Id kind) where
  eq_swap := fun {_ _} => @Std.OrientedCmp.eq_swap Nat compare _ _ _
  isLE_trans := fun {_ _ _} => @Std.TransCmp.isLE_trans Nat compare _ _ _ _

instance : Std.LawfulEqOrd (Id kind) where
  eq_of_compare := by
    intro left right same
    have : left.number.toNat = right.number.toNat := Nat.compare_eq_eq.mp same
    cases left
    cases right
    exact congrArg Id.mk (UInt64.toNat.inj this)

end Id

/-- Counters for the four kinds: the number each kind was given last. -/
structure IdSource where
  task : UInt64
  node : UInt64
  reco : UInt64
  action : UInt64
deriving DecidableEq

namespace IdSource

/-- A source that has given nothing yet. -/
def initial : IdSource :=
  ⟨IdKind.task.base, IdKind.node.base, IdKind.reco.base, IdKind.action.base⟩

instance : Inhabited IdSource := ⟨initial⟩

/-- The number a kind was given last. -/
def last (source : IdSource) : IdKind → UInt64
  | .task => source.task
  | .node => source.node
  | .reco => source.reco
  | .action => source.action

/-- The next identity of a kind, and the source after giving it. -/
def draw (source : IdSource) (kind : IdKind) : Id kind × IdSource :=
  let next := source.last kind + 1
  (⟨next⟩, match kind with
    | .task => { source with task := next }
    | .node => { source with node := next }
    | .reco => { source with reco := next }
    | .action => { source with action := next })

end IdSource

end ScreenPilot
