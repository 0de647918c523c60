import Mathlib.Data.Finset.Card

/-!
Walks: a step that leads on to another place or ends there, taken again and again. A walk that comes
back to a place it has seen never ends, and one that is held inside of finitely many places has to end
or to come back.
-/

namespace FlowAlign.Walk

variable {σ κ : Type}

/-- The place after so many steps, nothing when the walk has ended before. -/
def after (next? : σ → Option σ) (start : σ) : Nat → Option σ
  | 0 => some start
  | count + 1 => (after next? start count).bind next?

def Ends (next? : σ → Option σ) (start : σ) : Prop :=
  ∃ count, after next? start count = none

variable {next? : σ → Option σ} {start : σ}

theorem after_add (next? : σ → Option σ) (start : σ) (count more : Nat) :
    after next? start (count + more) =
      (after next? start count).bind fun place => after next? place more := by
  induction more with
  | zero => simp [after]
  | succ more ih => rw [← Nat.add_assoc, after, ih, Option.bind_assoc]; rfl

theorem after_front (count : Nat) :
    after next? start (count + 1) = (next? start).bind fun place => after next? place count := by
  rw [Nat.add_comm, after_add]
  rfl

theorem after_eq_none_of_le {count later : Nat} (ended : after next? start count = none)
    (le : count ≤ later) : after next? start later = none := by
  rw [← Nat.add_sub_cancel' le, after_add, ended]
  rfl

/-- Before the end every place has a next one. -/
theorem exists_place {count later : Nat} (goesOn : after next? start later ≠ none)
    (below : count < later) :
    ∃ place next, after next? start count = some place ∧ next? place = some next ∧
      after next? start (count + 1) = some next := by
  have further : after next? start (count + 1) ≠ none := fun ended =>
    goesOn (after_eq_none_of_le ended below)
  obtain ⟨next, isNext⟩ := Option.ne_none_iff_exists'.mp further
  obtain ⟨place, isPlace, leads⟩ := Option.bind_eq_some_iff.mp isNext
  exact ⟨place, next, isPlace, leads, isNext⟩

theorem exists_last {count : Nat} (ended : after next? start count = none) :
    ∃ number last, number < count ∧ after next? start number = some last ∧ next? last = none := by
  induction count with
  | zero => cases ended
  | succ count ih =>
      cases isPlace : after next? start count with
      | none =>
          obtain ⟨number, last, below, isLast, innermost⟩ := ih isPlace
          exact ⟨number, last, by omega, isLast, innermost⟩
      | some last =>
          rw [after, isPlace, Option.bind_some] at ended
          exact ⟨count, last, Nat.lt_succ_self count, isPlace, ended⟩

/-- A walk on which every step lowers a measure ends before the measure is used up. -/
theorem ends_of_lower (measure : σ → Nat)
    (lower : ∀ count place next, after next? start count = some place → next? place = some next →
      measure next < measure place) :
    after next? start (measure start + 1) = none := by
  have spent : ∀ count place, after next? start count = some place →
      measure place + count ≤ measure start := by
    intro count
    induction count with
    | zero =>
        intro place isPlace
        obtain rfl : start = place := Option.some.inj isPlace
        exact Nat.le_refl _
    | succ count ih =>
        intro next isNext
        obtain ⟨place, isPlace, leads⟩ := Option.bind_eq_some_iff.mp isNext
        have before := ih place isPlace
        have less := lower count place next isPlace leads
        omega
  by_contra goesOn
  obtain ⟨place, isPlace⟩ := Option.ne_none_iff_exists'.mp goesOn
  have bound := spent _ place isPlace
  omega

section View

variable {view : σ → κ}
  (guides : ∀ place other, view place = view other → (next? place).map view = (next? other).map view)

include guides

theorem after_view {place other : σ} (same : view place = view other) (count : Nat) :
    (after next? place count).map view = (after next? other count).map view := by
  induction count generalizing place other with
  | zero => exact congrArg some same
  | succ count ih =>
      have stepped := guides place other same
      rw [after_front, after_front]
      cases isNext : next? place with
      | none =>
          rw [isNext, Option.map_none, eq_comm, Option.map_eq_none_iff] at stepped
          rw [stepped]
      | some next =>
          rw [isNext, Option.map_some, eq_comm] at stepped
          obtain ⟨next', isNext', same'⟩ := Option.map_eq_some_iff.mp stepped
          rw [isNext']
          exact ih same'.symm

/-- What has been seen once is seen again: a walk that comes back never ends. -/
theorem not_ends_of_repeat {count later : Nat} {place other : σ} (below : count < later)
    (isPlace : after next? start count = some place) (isOther : after next? start later = some other)
    (same : view place = view other) : ¬ Ends next? start := by
  have goesOn : ∀ number, after next? start number ≠ none := by
    intro number
    induction number using Nat.strongRecOn with
    | ind number ih =>
        intro ended
        by_cases early : number ≤ later
        · rw [after_eq_none_of_le ended early] at isOther
          cases isOther
        · -- go back by one round, to a smaller number of steps
          have round := after_view guides same (number - later)
          have inside := after_add next? start later (number - later)
          have before := after_add next? start count (number - later)
          rw [isOther, Option.bind_some, Nat.add_sub_cancel' (by omega), ended] at inside
          rw [isPlace, Option.bind_some] at before
          rw [← inside, Option.map_none, Option.map_eq_none_iff, ← before] at round
          exact ih (count + (number - later)) (by omega) round
  rintro ⟨number, ended⟩
  exact goesOn number ended

end View

theorem not_ends_of_return {count later : Nat} {place : σ} (below : count < later)
    (isPlace : after next? start count = some place) (again : after next? start later = some place) :
    ¬ Ends next? start := by
  have guides : ∀ place other : σ, id place = id other →
      (next? place).map id = (next? other).map id := by
    rintro place _ rfl
    rfl
  exact not_ends_of_repeat guides below isPlace again rfl

/-- More steps than there are views of the places they start from lead to a view met before. -/
theorem exists_repeat {view : σ → κ} [DecidableEq κ] {views : Finset κ}
    (held : ∀ place next, next? place = some next → view place ∈ views) {count : Nat}
    (many : views.card < count) (goesOn : after next? start count ≠ none) :
    ∃ first second place other, first < second ∧ second < count ∧
      after next? start first = some place ∧ after next? start second = some other ∧
      view place = view other := by
  let viewAt (number : Nat) : Option κ := (after next? start number).map view
  have maps : ∀ number ∈ Finset.range count, viewAt number ∈ views.image some := by
    intro number inside
    obtain ⟨place, next, isPlace, leads, _⟩ := exists_place goesOn (Finset.mem_range.mp inside)
    simp only [viewAt, isPlace, Option.map_some]
    exact Finset.mem_image_of_mem some (held place next leads)
  have fewer : (views.image some).card < (Finset.range count).card := by
    rw [Finset.card_range]
    exact Nat.lt_of_le_of_lt Finset.card_image_le many
  obtain ⟨first, firstInside, second, secondInside, apart, same⟩ :=
    Finset.exists_ne_map_eq_of_card_lt_of_maps_to fewer maps
  rw [Finset.mem_range] at firstInside secondInside
  obtain ⟨place, _, isPlace, _⟩ := exists_place goesOn firstInside
  obtain ⟨other, _, isOther, _⟩ := exists_place goesOn secondInside
  simp only [viewAt, isPlace, isOther, Option.map_some, Option.some.injEq] at same
  rcases Nat.lt_or_gt_of_ne apart with less | less
  · exact ⟨first, second, place, other, less, secondInside, isPlace, isOther, same⟩
  · exact ⟨second, first, other, place, less, firstInside, isOther, isPlace, same.symm⟩

end FlowAlign.Walk
