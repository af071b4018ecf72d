/-!
# Names that are put on a stack and taken off

A record of such moves (`Mark`) leads from one stack to another (`Leads`). On an empty
stack, a name that is taken off was put on before it, and between the two everything that
was put on has been taken off (`Leads.matched`). If the stack is empty in the end, all
moves pair off (`Leads.balanced`).
-/

set_option autoImplicit false

namespace ScreenPilot

/-- A move of a name on a stack. -/
inductive Mark where
  | push (name : String)
  | pop (name : String)

/-- Moves lead from a stack to a stack. -/
inductive Leads (first : List String) : List Mark → List String → Prop where
  | nil : Leads first [] first
  | push {marks : List Mark} {stack : List String} (leads : Leads first marks stack)
      (name : String) : Leads first (marks ++ [.push name]) (name :: stack)
  | pop {marks : List Mark} {stack : List String} {name : String}
      (leads : Leads first marks (name :: stack)) : Leads first (marks ++ [.pop name]) stack

/-- Whatever is put on a stack is taken off again, the last name first. -/
inductive Balanced : List Mark → Prop where
  | nil : Balanced []
  | enclose {marks : List Mark} (balanced : Balanced marks) (name : String) :
      Balanced (.push name :: marks ++ [.pop name])
  | append {marks more : List Mark} (balanced : Balanced marks) (after : Balanced more) :
      Balanced (marks ++ more)

namespace Leads

variable {first middle last : List String} {marks more : List Mark}

theorem trans (leads : Leads first marks middle) (after : Leads middle more last) :
    Leads first (marks ++ more) last := by
  induction after with
  | nil =>
    rw [List.append_nil]
    exact leads
  | push _ name ih =>
    rw [← List.append_assoc]
    exact .push ih name
  | pop _ ih =>
    rw [← List.append_assoc]
    exact .pop ih

/-- **The name on top was put there by the last move that is not made up for.** -/
theorem top {name : String} {stack : List String} (leads : Leads [] marks (name :: stack)) :
    ∃ before inner, marks = before ++ .push name :: inner ∧ Balanced inner ∧
      Leads [] before stack := by
  obtain ⟨size, bound⟩ : ∃ size, marks.length ≤ size := ⟨_, Nat.le_refl _⟩
  -- the moves below the name on top are fewer than those before a name that is taken off
  induction size generalizing marks name stack with
  | zero =>
    cases leads <;> simp at bound
  | succ size ih =>
    cases leads with
    | push leads => exact ⟨_, [], rfl, .nil, leads⟩
    | @pop marks _ other leads =>
      rw [List.length_append, List.length_singleton] at bound
      obtain ⟨before, inner, rfl, balanced, leads⟩ := ih leads (Nat.le_of_succ_le_succ bound)
      rw [List.length_append, List.length_cons] at bound
      obtain ⟨before, inner', rfl, balanced', leads⟩ := ih leads (by omega)
      refine ⟨before, inner' ++ (.push other :: inner ++ [.pop other]), ?_, ?_, leads⟩
      · simp
      · exact balanced'.append (balanced.enclose other)

/-- **A name that is taken off was put on, and all that was put on since is off again.** -/
theorem matched {earlier later : List Mark} {name : String} {stack : List String}
    (leads : Leads [] marks stack) (split : marks = earlier ++ .pop name :: later) :
    ∃ before inner, earlier = before ++ .push name :: inner ∧ Balanced inner := by
  induction leads generalizing later with
  | nil => cases earlier <;> cases split
  | push _ other ih =>
    rcases List.eq_nil_or_concat later with rfl | ⟨rest, mark, rfl⟩
    · have same := (List.append_inj' split rfl).2
      cases same
    · rw [List.concat_eq_append, ← List.cons_append, ← List.append_assoc] at split
      exact ih (List.append_inj' split rfl).1
  | pop leads ih =>
    rcases List.eq_nil_or_concat later with rfl | ⟨rest, mark, rfl⟩
    · obtain ⟨rfl, same⟩ := List.append_inj' split rfl
      cases same
      obtain ⟨before, inner, rfl, balanced, -⟩ := leads.top
      exact ⟨before, inner, rfl, balanced⟩
    · rw [List.concat_eq_append, ← List.cons_append, ← List.append_assoc] at split
      exact ih (List.append_inj' split rfl).1

/-- **If nothing is left on the stack, all moves pair off.** -/
theorem balanced (leads : Leads [] marks []) : Balanced marks := by
  obtain ⟨size, bound⟩ : ∃ size, marks.length ≤ size := ⟨_, Nat.le_refl _⟩
  induction size generalizing marks with
  | zero =>
    rw [List.length_eq_zero_iff.mp (Nat.le_zero.mp bound)]
    exact .nil
  | succ size ih =>
    cases leads with
    | nil => exact .nil
    | @pop marks _ name leads =>
      obtain ⟨before, inner, rfl, balanced, leads⟩ := leads.top
      rw [List.length_append, List.length_append] at bound
      rw [List.append_assoc]
      exact (ih leads (by simp at bound; omega)).append (balanced.enclose name)

end Leads

end ScreenPilot
