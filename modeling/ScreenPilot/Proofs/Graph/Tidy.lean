import Mathlib.Data.List.Basic
import ScreenPilot.Run.Memory

/-!
# Tidy graphs

A tidy node lists no name twice: of each name in its lists the first occurrence is kept, and
no interrupt that is a next node already (`Node.tidy`, `Graph.tidy`).

To look for candidates it only matters which names come first, and which of them come before
the interrupts. In this, the candidates that follow a node and those that follow the tidy
node are the same (`Memory.followers_tidy`), though the lists differ in length and the
interrupts begin elsewhere. For a node that goes back to labels this holds although different
labels may lead to one node, so that the list of the tidy node may name a node twice.
-/

set_option autoImplicit false

namespace ScreenPilot

/-! ## First occurrences -/

section Firsts

variable {α β : Type} [BEq α] [LawfulBEq α] [BEq β] [LawfulBEq β]

/-- The first occurrences of what is kept are those of the first occurrences that are
kept. -/
theorem eraseDups_filter (keep : α → Bool) (list : List α) :
    (list.filter keep).eraseDups = list.eraseDups.filter keep := by
  match list with
  | [] => rfl
  | first :: rest =>
    have others := eraseDups_filter keep (rest.filter fun item => !item == first)
    rw [List.eraseDups_cons]
    by_cases kept : keep first = true
    · have swap : (rest.filter keep).filter (fun item => !item == first) =
          (rest.filter fun item => !item == first).filter keep := by
        simp only [List.filter_filter, Bool.and_comm]
      rw [List.filter_cons_of_pos kept, List.eraseDups_cons, List.filter_cons_of_pos kept,
        swap, others]
    · have never : (rest.filter fun item => !item == first).filter keep = rest.filter keep := by
        rw [List.filter_filter]
        refine List.filter_congr fun item _ => ?_
        by_cases same : item = first
        · subst same
          simp [kept]
        · simp [same]
      rw [List.filter_cons_of_neg kept, List.filter_cons_of_neg kept, ← others, never]
termination_by list.length
decreasing_by
  have := List.length_filter_le (fun item => !item == first) rest
  simp only [List.length_cons]
  omega

/-- What stands first among the first occurrences stands there first. -/
theorem eraseDups_eraseDups (list : List α) : list.eraseDups.eraseDups = list.eraseDups := by
  match list with
  | [] => rfl
  | first :: rest =>
    have others := eraseDups_eraseDups (rest.filter fun item => !item == first)
    rw [List.eraseDups_cons, List.eraseDups_cons, ← eraseDups_filter, List.filter_filter]
    simp only [Bool.and_self, others]
termination_by list.length
decreasing_by
  have := List.length_filter_le (fun item => !item == first) rest
  simp only [List.length_cons]
  omega

/-- To drop repeated items before they are read changes nothing about what is read
first. -/
theorem eraseDups_filterMap (read : α → Option β) (list : List α) :
    (list.eraseDups.filterMap read).eraseDups = (list.filterMap read).eraseDups := by
  match list with
  | [] => rfl
  | first :: rest =>
    have others := eraseDups_filterMap read (rest.filter fun item => !item == first)
    rw [List.eraseDups_cons]
    cases found : read first with
    | none =>
      have unread : (rest.filter fun item => !item == first).filterMap read =
          rest.filterMap read := by
        rw [List.filterMap_filter]
        refine List.filterMap_congr fun item _ => ?_
        by_cases same : item = first
        · subst same
          simp [found]
        · simp [same]
      rw [List.filterMap_cons_none found, List.filterMap_cons_none found, others, unread]
    | some value =>
      have again : ((rest.filter fun item => !item == first).filterMap read).filter
            (fun item => !item == value) =
          (rest.filterMap read).filter fun item => !item == value := by
        rw [List.filterMap_filter, List.filter_filterMap, List.filter_filterMap]
        refine List.filterMap_congr fun item _ => ?_
        by_cases same : item = first
        · subst same
          simp [found, Option.filter]
        · simp [same]
      rw [List.filterMap_cons_some found, List.filterMap_cons_some found, List.eraseDups_cons,
        List.eraseDups_cons, eraseDups_filter, others, ← eraseDups_filter, again]
termination_by list.length
decreasing_by
  have := List.length_filter_le (fun item => !item == first) rest
  simp only [List.length_cons]
  omega

end Firsts

/-! ## Candidates with the same first occurrences -/

/-- Two lists of candidates have the same first occurrences, and of both the same names
stand first before the position at which the interrupts begin. -/
structure SameFirsts (candidates : List String) (interruptAt : Nat)
    (candidates' : List String) (interruptAt' : Nat) : Prop where
  firsts : candidates'.eraseDups = candidates.eraseDups
  early : ∀ name ∈ candidates,
    (candidates'.idxOf name < interruptAt' ↔ candidates.idxOf name < interruptAt)

namespace SameFirsts

variable {candidates candidates' : List String} {interruptAt interruptAt' : Nat}

theorem mem_iff (same : SameFirsts candidates interruptAt candidates' interruptAt')
    (name : String) : name ∈ candidates' ↔ name ∈ candidates := by
  rw [← List.mem_eraseDups, same.firsts, List.mem_eraseDups]

/-- Nothing is left to look for in both lists or in none. -/
theorem nil_iff (same : SameFirsts candidates interruptAt candidates' interruptAt') :
    candidates' = [] ↔ candidates = [] := by
  simp only [List.eq_nil_iff_forall_not_mem, same.mem_iff]

/-- Both lists hold interrupts alone or neither does. -/
theorem zero_iff (same : SameFirsts candidates interruptAt candidates' interruptAt')
    (something : candidates ≠ []) : interruptAt' = 0 ↔ interruptAt = 0 := by
  have something' := mt same.nil_iff.mp something
  obtain ⟨first, rest, rfl⟩ := List.exists_cons_of_ne_nil something
  obtain ⟨first', rest', rfl⟩ := List.exists_cons_of_ne_nil something'
  have head := same.early first List.mem_cons_self
  have head' := same.early first' ((same.mem_iff first').mp List.mem_cons_self)
  rw [List.idxOf_cons_self] at head head'
  constructor
  · intro none'
    refine Nat.eq_zero_of_not_pos fun some => ?_
    have := head.mpr some
    omega
  · intro none
    refine Nat.eq_zero_of_not_pos fun some' => ?_
    have := head'.mp some'
    omega

/-- Lists without interrupts. -/
theorem of_firsts (firsts : candidates'.eraseDups = candidates.eraseDups) :
    SameFirsts candidates candidates.length candidates' candidates'.length where
  firsts := firsts
  early name listed := by
    have listed' : name ∈ candidates' := by
      rwa [← List.mem_eraseDups, firsts, List.mem_eraseDups]
    simp only [List.idxOf_lt_length_iff, listed, listed']

end SameFirsts

/-! ## Tidy nodes and graphs -/

/-- The node that lists the same names, but none of them twice. -/
def Node.tidy (node : Node) : Node :=
  { node with
    next := node.next.eraseDups
    interrupt := (node.interrupt.removeAll node.next).eraseDups
    onError := node.onError.eraseDups
    jumpback := node.jumpback.eraseDups }

/-- The graph of the tidy nodes. -/
def Graph.tidy (graph : Graph) : Graph where
  nodes := graph.nodes.map fun _ node => node.tidy
  named := by
    intro name found same
    rw [Std.ExtTreeMap.getElem?_map] at same
    obtain ⟨node, here, rfl⟩ := Option.map_eq_some_iff.mp same
    exact graph.named name node here

theorem Graph.find?_tidy (graph : Graph) (name : String) :
    graph.tidy.find? name = (graph.find? name).map Node.tidy :=
  Std.ExtTreeMap.getElem?_map

/-- A list names something if it does without repetitions. -/
theorem isEmpty_eraseDups (names : List String) : names.eraseDups.isEmpty = names.isEmpty := by
  cases names with
  | nil => rfl
  | cons name names => rw [List.eraseDups_cons, List.isEmpty_cons, List.isEmpty_cons]

namespace Node

/-- A name stands first before the interrupts if it is that of a next node. -/
theorem idxOf_followers (next interrupt : List String) (name : String) :
    (next ++ interrupt).idxOf name < next.length ↔ name ∈ next := by
  rw [List.idxOf_append]
  split
  · simp only [List.idxOf_lt_length_iff]
  · rename_i absent
    simp only [absent, iff_false]
    omega

/-- The candidates after a node and after the tidy node. -/
theorem followers_tidy (node : Node) :
    SameFirsts node.followers.1 node.followers.2 node.tidy.followers.1
      node.tidy.followers.2 where
  firsts := by
    show (node.next.eraseDups ++ (node.interrupt.removeAll node.next).eraseDups).eraseDups =
      (node.next ++ node.interrupt).eraseDups
    rw [← List.eraseDups_append, eraseDups_eraseDups]
  early name _ := by
    show (node.next.eraseDups ++ _).idxOf name < node.next.eraseDups.length ↔
      (node.next ++ node.interrupt).idxOf name < node.next.length
    rw [idxOf_followers, idxOf_followers, List.mem_eraseDups]

/-- The nodes that handle the errors of a node and of the tidy node. -/
theorem onError_tidy (node : Node) :
    SameFirsts node.onError node.onError.length node.tidy.onError node.tidy.onError.length :=
  .of_firsts (eraseDups_eraseDups _)

end Node

/-- **The candidates that follow a node and those that follow the tidy node have the same
first occurrences.** -/
theorem Memory.followers_tidy (memory : Memory) (node : Node) :
    SameFirsts (memory.followers node).1 (memory.followers node).2
      (memory.followers node.tidy).1 (memory.followers node.tidy).2 := by
  have empty : node.tidy.jumpback.isEmpty = node.jumpback.isEmpty := isEmpty_eraseDups _
  unfold Memory.followers
  rw [empty]
  split
  · exact node.followers_tidy
  · exact .of_firsts (eraseDups_filterMap _ _)

end ScreenPilot
