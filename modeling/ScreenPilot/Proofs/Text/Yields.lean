/-!
# What reading may yield

A reader of a text gives a value or nothing. What it yields is like this if the value is, should
there be one; so steps that keep something keep it one after the other (`yields_foldlM`).
-/

set_option autoImplicit false

namespace ScreenPilot

/-- If there is a value, it is like this. -/
def Yields {α : Type} (holds : α → Prop) (given : Option α) : Prop :=
  ∀ value, given = some value → holds value

variable {α β : Type} {holds : α → Prop} {holds' : β → Prop}

theorem yields_none : Yields holds none := nofun

theorem yields_some {value : α} (held : holds value) : Yields holds (some value) := by
  rintro _ ⟨⟩
  exact held

theorem yields_bind {first : Option α} {next : α → Option β} (begins : Yields holds first)
    (goesOn : ∀ value, holds value → Yields holds' (next value)) :
    Yields holds' (first >>= next) := by
  intro value ends
  obtain ⟨middle, isFirst, ends⟩ := Option.bind_eq_some_iff.mp ends
  exact goesOn middle (begins middle isFirst) value ends

/-- Whatever comes first. -/
theorem yields_after {first : Option α} {next : α → Option β}
    (goesOn : ∀ value, Yields holds' (next value)) : Yields holds' (first >>= next) :=
  @yields_bind _ _ (fun _ => True) _ _ _ (fun _ _ => trivial) fun value _ => goesOn value

theorem yields_map {given : Option α} {change : α → β} (yields : Yields holds given)
    (changes : ∀ value, holds value → holds' (change value)) :
    Yields holds' (given.map change) := by
  intro value ends
  obtain ⟨middle, isGiven, rfl⟩ := Option.map_eq_some_iff.mp ends
  exact changes middle (yields middle isGiven)

theorem yields_orElse {first second : Option α} (yields : Yields holds first)
    (yields' : Yields holds second) : Yields holds (first <|> second) := by
  cases first with
  | none => exact yields'
  | some value => exact yields

/-- Steps that keep something keep it one after the other. -/
theorem yields_foldlM {step : α → β → Option α} {items : List β}
    (steps : ∀ item ∈ items, ∀ state, holds state → Yields holds (step state item)) {state : α}
    (held : holds state) : Yields holds (items.foldlM step state) := by
  induction items generalizing state with
  | nil => exact yields_some held
  | cons item items ih =>
    obtain ⟨isFirst, steps⟩ := List.forall_mem_cons.mp steps
    rw [List.foldlM_cons]
    exact yields_bind (isFirst state held) fun next held => ih steps held

end ScreenPilot
