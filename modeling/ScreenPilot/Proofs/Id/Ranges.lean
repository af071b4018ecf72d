import ScreenPilot.Id

/-!
# Ranges of numbers

Four counters number four kinds of things, each from a base of its own. To draw is one step
(`Engine.draw`), so whoever calls, and however the calls of several callers are mixed, what they
are given is told by the list of the kinds they ask for (`IdSource.issue`). As long as no counter
wraps around, a kind is given the numbers right above its base, upwards and without a gap, one for
each call (`IdSource.mem_issue_iff`, `IdSource.pairwise_issue`).

That a number tells its kind is true only as far as the distances between the bases reach, for
nothing stops a counter at the next base. Two kinds share a number exactly if one was drawn more
often than its base lies below that of the other one, and the other one was drawn at all
(`RunsInto`, `IdSource.share_iff`). Attempts get there first: most of them find nothing, and then
no action takes a number (`IdSource.runsInto_attemptsAfter_iff`).
-/

set_option autoImplicit false

namespace ScreenPilot

/-- An identity together with its kind. -/
structure Issued where
  kind : IdKind
  id : Id kind

/-- Two kinds were given the same number. -/
def Share (ids : List Issued) (one other : IdKind) : Prop :=
  ∃ number, ⟨one, ⟨number⟩⟩ ∈ ids ∧ ⟨other, ⟨number⟩⟩ ∈ ids

theorem Share.symm {ids : List Issued} {one other : IdKind} (share : Share ids one other) :
    Share ids other one := by
  obtain ⟨number, isOne, isOther⟩ := share
  exact ⟨number, isOther, isOne⟩

/-- One kind was drawn so often that its counter has gone past the base of another kind, of which
there are identities as well. -/
structure RunsInto (calls : List IdKind) (one other : IdKind) : Prop where
  below : one.base < other.base
  past : other.base.toNat - one.base.toNat < calls.count one
  drawn : other ∈ calls

namespace IdSource

/-- The identities given at calls for these kinds, in the order of the calls. -/
def issue (source : IdSource) : List IdKind → List Issued
  | [] => []
  | kind :: calls => ⟨kind, (source.draw kind).1⟩ :: (source.draw kind).2.issue calls

/-- Where the counter of a kind is to stand after some calls. -/
def reach (source : IdSource) (calls : List IdKind) (kind : IdKind) : Nat :=
  (source.last kind).toNat + calls.count kind

/-- No counter wraps around in these calls. -/
def Suffices (source : IdSource) (calls : List IdKind) : Prop :=
  ∀ kind, source.reach calls kind < UInt64.size

variable {source : IdSource} {calls : List IdKind} {kind one other : IdKind}

/-! ## One call -/

theorem last_draw (source : IdSource) (kind other : IdKind) :
    (source.draw kind).2.last other =
      if other = kind then source.last kind + 1 else source.last other := by
  cases kind <;> cases other <;> rfl

/-- A counter that does not wrap around goes one up. -/
theorem toNat_next {counter : UInt64} (room : counter.toNat + 1 < UInt64.size) :
    (counter + 1).toNat = counter.toNat + 1 := by
  rw [UInt64.toNat_add, UInt64.toNat_one]
  exact Nat.mod_eq_of_lt room

/-- The kind that is called for has a number left. -/
theorem Suffices.toNat_next (enough : source.Suffices (kind :: calls)) :
    (source.last kind + 1).toNat = (source.last kind).toNat + 1 := by
  have room := enough kind
  rw [reach, List.count_cons_self] at room
  exact IdSource.toNat_next (by omega)

/-- A call goes one step to where the counters are to stand, and leaves that where it is. -/
theorem Suffices.reach_draw (enough : source.Suffices (kind :: calls)) (other : IdKind) :
    (source.draw kind).2.reach calls other = source.reach (kind :: calls) other := by
  rw [reach, reach, last_draw]
  split
  · subst other
    rw [enough.toNat_next, List.count_cons_self, Nat.add_right_comm, Nat.add_assoc]
  · rename_i differs
    rw [List.count_cons_of_ne (Ne.symm differs)]

theorem Suffices.draw (enough : source.Suffices (kind :: calls)) :
    (source.draw kind).2.Suffices calls :=
  fun other => enough.reach_draw other ▸ enough other

/-! ## Any calls -/

/-- A kind is given the numbers above the last one it had, up to where its counter then stands. -/
theorem mem_issue_iff (enough : source.Suffices calls) (id : Id kind) :
    ⟨kind, id⟩ ∈ source.issue calls ↔
      (source.last kind).toNat < id.number.toNat ∧ id.number.toNat ≤ source.reach calls kind := by
  induction calls generalizing source with
  | nil =>
    simp only [issue, List.not_mem_nil, reach, List.count_nil, Nat.add_zero, false_iff]
    omega
  | cons first calls ih =>
    rw [issue, List.mem_cons, ih enough.draw, enough.reach_draw, last_draw]
    have within : (source.last kind).toNat + (first :: calls).count kind =
        source.reach (first :: calls) kind := rfl
    split
    · subst first
      have isNext : (⟨kind, id⟩ : Issued) = ⟨kind, (source.draw kind).1⟩ ↔
          id.number.toNat = (source.last kind).toNat + 1 := by
        rw [← enough.toNat_next, UInt64.toNat_inj]
        exact ⟨fun same => by cases same; rfl, fun same => by cases id; cases same; rfl⟩
      rw [isNext, enough.toNat_next]
      rw [List.count_cons_self] at within
      omega
    · rename_i differs
      have notFirst : (⟨kind, id⟩ : Issued) ≠ ⟨first, (source.draw first).1⟩ :=
        fun same => differs (congrArg Issued.kind same)
      simp only [notFirst, false_or]

/-- The numbers of a kind go up. -/
theorem pairwise_issue (enough : source.Suffices calls) :
    (source.issue calls).Pairwise fun earlier later =>
      earlier.kind = later.kind → earlier.id.number < later.id.number := by
  induction calls generalizing source with
  | nil => exact .nil
  | cons first calls ih =>
    refine .cons ?_ (ih enough.draw)
    rintro ⟨kind, id⟩ isLater rfl
    have above := ((mem_issue_iff enough.draw id).mp isLater).1
    rwa [last_draw, if_pos rfl] at above

/-- No number that is given is the number of nothing. -/
theorem isValid_of_mem_issue (enough : source.Suffices calls) {issued : Issued}
    (isIssued : issued ∈ source.issue calls) : issued.id.isValid := by
  have above := ((mem_issue_iff enough issued.id).mp isIssued).1
  refine decide_eq_true fun isNothing => ?_
  rw [isNothing] at above
  exact Nat.not_lt_zero _ above

/-! ## Two kinds -/

/-- Of two counters, the one that is behind has to get past the other one, which has to move. -/
theorem share_iff_of_le (enough : source.Suffices calls)
    (behind : source.last one ≤ source.last other) :
    Share (source.issue calls) one other ↔
      (source.last other).toNat < source.reach calls one ∧ other ∈ calls := by
  have reaches : source.reach calls other = (source.last other).toNat + calls.count other := rfl
  constructor
  · rintro ⟨number, isOne, isOther⟩
    have ofOne := (mem_issue_iff enough _).mp isOne
    have ofOther := (mem_issue_iff enough _).mp isOther
    refine ⟨Nat.lt_of_lt_of_le ofOther.1 ofOne.2, List.count_pos_iff.mp ?_⟩
    omega
  · rintro ⟨past, drawn⟩
    have moves := List.count_pos_iff.mpr drawn
    have room := enough other
    have next : (source.last other + 1).toNat = (source.last other).toNat + 1 :=
      toNat_next (by omega)
    rw [UInt64.le_iff_toNat_le] at behind
    -- the first number of the kind ahead is shared
    refine ⟨source.last other + 1, (mem_issue_iff enough _).mpr ?_,
      (mem_issue_iff enough _).mpr ?_⟩
    · simp only [next]
      omega
    · simp only [next]
      omega

theorem last_initial (kind : IdKind) : initial.last kind = kind.base := by cases kind <;> rfl

theorem share_iff_runsInto (enough : initial.Suffices calls) (below : one.base < other.base) :
    Share (initial.issue calls) one other ↔ RunsInto calls one other := by
  rw [share_iff_of_le enough (by rw [last_initial, last_initial]; exact UInt64.le_of_lt below),
    reach, last_initial, last_initial]
  have lower := UInt64.lt_iff_toNat_lt.mp below
  constructor
  · rintro ⟨past, drawn⟩
    exact ⟨below, by omega, drawn⟩
  · rintro ⟨-, past, drawn⟩
    exact ⟨by omega, drawn⟩

theorem base_lt_or_lt (differ : one ≠ other) : one.base < other.base ∨ other.base < one.base := by
  revert differ
  cases one <;> cases other <;> decide

/-- Two kinds share a number exactly if the counter of one has run into the range of the other. -/
theorem share_iff (enough : initial.Suffices calls) (differ : one ≠ other) :
    Share (initial.issue calls) one other ↔ RunsInto calls one other ∨ RunsInto calls other one := by
  rcases base_lt_or_lt differ with below | above
  · rw [share_iff_runsInto enough below]
    exact ⟨.inl, fun runs => runs.elim id fun back => absurd back.below (UInt64.lt_asymm below)⟩
  · have swapped : Share (initial.issue calls) one other ↔
        Share (initial.issue calls) other one := ⟨.symm, .symm⟩
    rw [swapped, share_iff_runsInto enough above]
    exact ⟨.inr, fun runs => runs.elim (fun back => absurd back.below (UInt64.lt_asymm above)) id⟩

/-- While no counter wraps around, all identities are valid, those of a kind go up and fill the
range above its base, and a number tells its kind unless one kind has run into the range of
another. -/
theorem numbers_tell (calls : List IdKind) (enough : initial.Suffices calls) :
    (∀ issued ∈ initial.issue calls, issued.id.isValid) ∧
    (initial.issue calls).Pairwise (fun earlier later =>
      earlier.kind = later.kind → earlier.id.number < later.id.number) ∧
    (∀ (kind : IdKind) (id : Id kind), ⟨kind, id⟩ ∈ initial.issue calls ↔
      kind.base.toNat < id.number.toNat ∧
        id.number.toNat ≤ kind.base.toNat + calls.count kind) ∧
    ∀ one other, one ≠ other →
      (Share (initial.issue calls) one other ↔
        RunsInto calls one other ∨ RunsInto calls other one) := by
  refine ⟨fun _ isIssued => isValid_of_mem_issue enough isIssued, pairwise_issue enough,
    fun kind id => ?_, fun _ _ differ => share_iff enough differ⟩
  rw [mem_issue_iff enough, reach, last_initial]

/-! ## Attempts beside one action -/

/-- One action, and attempts after it. -/
def attemptsAfter (count : Nat) : List IdKind := .action :: List.replicate count .reco

theorem count_attemptsAfter (count : Nat) (kind : IdKind) :
    (attemptsAfter count).count kind =
      (if kind = .reco then count else 0) + if kind = .action then 1 else 0 := by
  rw [attemptsAfter, List.count_cons, List.count_replicate]
  cases kind <;> rfl

theorem suffices_attemptsAfter {count : Nat} (room : count + 500000001 < UInt64.size) :
    initial.Suffices (attemptsAfter count) := by
  intro kind
  have lowEnough : kind.base.toNat ≤ 500000000 := by cases kind <;> decide
  rw [reach, last_initial, count_attemptsAfter]
  split <;> split <;> omega

theorem runsInto_attemptsAfter_iff (count : Nat) :
    RunsInto (attemptsAfter count) .reco .action ↔ 100000000 < count := by
  have counted : (attemptsAfter count).count .reco = count := by
    rw [count_attemptsAfter, if_pos rfl, if_neg nofun, Nat.add_zero]
  have distance : IdKind.action.base.toNat - IdKind.reco.base.toNat = 100000000 := by decide
  constructor
  · intro runs
    exact distance ▸ counted ▸ runs.past
  · intro many
    refine ⟨by decide, ?_, List.mem_cons_self⟩
    rwa [distance, counted]

/-- As many attempts as fit below the actions still have numbers of their own. -/
theorem numbers_tell_at_brim :
    initial.Suffices (attemptsAfter 100000000) ∧
    (∀ issued ∈ initial.issue (attemptsAfter 100000000), issued.id.isValid) ∧
    (initial.issue (attemptsAfter 100000000)).Pairwise (fun earlier later =>
      earlier.kind = later.kind → earlier.id.number < later.id.number) ∧
    ¬ Share (initial.issue (attemptsAfter 100000000)) .reco .action := by
  have enough : initial.Suffices (attemptsAfter 100000000) := suffices_attemptsAfter (by decide)
  obtain ⟨valid, upward, -, shared⟩ := numbers_tell _ enough
  refine ⟨enough, valid, upward, fun share => ?_⟩
  rcases (shared .reco .action nofun).mp share with runs | back
  · exact Nat.lt_irrefl _ ((runsInto_attemptsAfter_iff _).mp runs)
  · exact absurd back.below (by decide)

/-- One attempt more is given the number of the action. -/
theorem attempt_meets_action :
    initial.Suffices (attemptsAfter 100000001) ∧
    ⟨.reco, ⟨500000001⟩⟩ ∈ initial.issue (attemptsAfter 100000001) ∧
    ⟨.action, ⟨500000001⟩⟩ ∈ initial.issue (attemptsAfter 100000001) := by
  have enough : initial.Suffices (attemptsAfter 100000001) := suffices_attemptsAfter (by decide)
  refine ⟨enough, (mem_issue_iff enough _).mpr ?_, (mem_issue_iff enough _).mpr ?_⟩
  · rw [reach, last_initial, count_attemptsAfter]
    decide
  · rw [reach, last_initial, count_attemptsAfter]
    decide

end IdSource

end ScreenPilot
