import FlowAlign.Position
import FlowAlign.Proofs.Outcome

/-! What positions in a list give: an item for a position inside of it, and slices of known length. -/

namespace FlowAlign.Position

variable {β : Type}

theorem pick_drop {items : List β} {position : Nat} (inside : position < items.length) :
    ∃ item, pick items position = .ok item ∧
      items.drop position = item :: items.drop (position + 1) :=
  ⟨items.get ⟨position, inside⟩, by simp [pick, resolve, inside], List.drop_eq_getElem_cons inside⟩

theorem pick_of_lt {items : List β} {position : Nat} (inside : position < items.length)
    (absent : β) : pick items position = .ok (items.getD position absent) := by
  simp [pick, resolve, inside]

theorem pick_fault {items : List β} {index : Int} {fault : Fault}
    (failed : pick items index = .error fault) :
    fault = .data .outOfRange ∧ ¬ (0 ≤ index ∧ index < items.length) := by
  by_cases inside : 0 ≤ index ∧ index < items.length
  · obtain ⟨position, rfl⟩ := Int.eq_ofNat_of_zero_le inside.1
    obtain ⟨_, picked, _⟩ := pick_drop (Int.ofNat_lt.mp inside.2)
    rw [picked] at failed
    cases failed
  · refine ⟨?_, inside⟩
    rw [pick] at failed
    rcases Outcome.bind_eq_error failed with early | ⟨place, _, failed⟩
    · rw [resolve, if_neg inside] at early
      split at early
      · cases early
      · exact (Except.error.inj early).symm
    · split at failed
      · cases failed
      · exact (Except.error.inj failed).symm

theorem slice_length (items : List β) (start stop : Int) :
    (slice items start stop).length = bound items.length stop - bound items.length start := by
  simp only [slice, List.length_drop, List.length_take, bound]
  split <;> split <;> omega

theorem bound_of_nat (length position : Nat) : bound length position = min position length := by
  rw [bound, if_neg (by omega), Int.toNat_natCast]

theorem bound_of_le {length position : Nat} (inside : position ≤ length) :
    bound length position = position := by
  rw [bound_of_nat, Nat.min_eq_left inside]

/-- A part of a list is cut out between the ends of what stands around it. -/
theorem slice_append (before middle after : List β) :
    slice (before ++ middle ++ after) before.length (before.length + middle.length) = middle := by
  have last : bound (before ++ middle ++ after).length (before.length + middle.length) =
      (before ++ middle).length := by
    rw [← Int.natCast_add, ← List.length_append]
    exact bound_of_le (by simp)
  rw [slice, bound_of_le (by simp), last, List.take_left, List.drop_left]

theorem slice_of_nat (items : List β) (start stop : Nat) :
    slice items start stop = (items.take stop).drop start := by
  have front : items.take (min stop items.length) = items.take stop := by
    rw [List.take_eq_take_iff]
    omega
  rw [slice, bound_of_nat, bound_of_nat, front]
  rcases Nat.le_total start items.length with inside | beyond
  · rw [Nat.min_eq_left inside]
  · have whole := List.length_take_le' stop items
    rw [Nat.min_eq_right beyond, List.drop_eq_nil_of_le whole,
      List.drop_eq_nil_of_le (Nat.le_trans whole beyond)]

/-- A slice and what stands behind it make up what stands behind its start. -/
theorem slice_append_drop (items : List β) {start stop : Nat} (forward : start ≤ stop) :
    slice items start stop ++ items.drop stop = items.drop start := by
  rw [slice_of_nat, List.drop_take]
  have behind : items.drop stop = (items.drop start).drop (stop - start) := by
    rw [List.drop_drop, Nat.add_sub_cancel' forward]
  rw [behind, List.take_append_drop]

end FlowAlign.Position
