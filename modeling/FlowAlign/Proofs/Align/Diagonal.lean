import FlowAlign.Proofs.Align.Cheapest

/-!
Global alignments along the diagonal. When no pair is cheaper than those on the diagonal and a gap
costs more than the tolerance, every cell off the diagonal is too expensive to be mistaken for one on
the way, so the trace pairs position with position.
-/

namespace FlowAlign.Align

/-- A square table whose cells nowhere undercut the diagonal, which is constant. -/
structure Diagonal (costs : Grid Rat) (size : Nat) (reward : Rat) : Prop where
  even : costs.Rectangular
  height_eq : costs.height = size
  width_eq : costs.width = size
  bounded : ∀ row column, row < size → column < size →
    -reward ≤ costs.get (Quantity.whole 0) row column
  diagonal : ∀ position, position < size →
    costs.get (Quantity.whole 0) position position = -reward

def diagonalSteps (size : Nat) : List Step :=
  (List.range size).map fun position => .pairing position position

section Bounds

variable {cost : Nat → Nat → Rat} {gap reward : Rat} {size : Nat}
  (gap_nonneg : 0 ≤ gap) (reward_nonneg : 0 ≤ reward)
  (bounded : ∀ row column, row < size → column < size → -reward ≤ cost row column)

include gap_nonneg reward_nonneg bounded

/-- Rows in excess are deleted, and every column earns at most one reward. -/
theorem cheapest_ge_columns : ∀ row column : Nat, row ≤ size → column ≤ size →
    ((row : Rat) - column) * gap - column * reward ≤ cheapest cost gap row column := by
  intro row column
  induction row, column using cheapest.induct with
  | case1 column =>
      intro _ _
      have rewards : 0 ≤ (column : Rat) * reward := by positivity
      have gaps : 0 ≤ (column : Rat) * gap := by positivity
      rw [cheapest]
      push_cast
      linarith
  | case2 row =>
      intro _ _
      rw [cheapest]
      push_cast
      linarith
  | case3 row column above diagonal left =>
      intro rowInside columnInside
      have fromAbove := above (by omega) columnInside
      have fromDiagonal := diagonal (by omega) (by omega)
      have fromLeft := left rowInside (by omega)
      have pair := bounded row column (by omega) (by omega)
      rw [cheapest]
      push_cast at fromAbove fromDiagonal fromLeft ⊢
      refine le_min (le_min ?_ ?_) ?_
      · linarith
      · linarith
      · linarith

/-- Columns in excess are inserted, and every row earns at most one reward. -/
theorem cheapest_ge_rows (row column : Nat) (rowInside : row ≤ size) (columnInside : column ≤ size) :
    ((column : Rat) - row) * gap - row * reward ≤ cheapest cost gap row column := by
  have flipped : ∀ row column, row < size → column < size → -reward ≤ cost column row :=
    fun row column rowInside columnInside => bounded column row columnInside rowInside
  rw [← cheapest_flip]
  exact cheapest_ge_columns gap_nonneg reward_nonneg flipped column row columnInside rowInside

theorem cheapest_diagonal (diagonal : ∀ position, position < size → cost position position = -reward) :
    ∀ position : Nat, position ≤ size →
      cheapest cost gap position position = -(position * reward) := by
  intro position
  induction position with
  | zero =>
      intro _
      rw [cheapest]
      simp
  | succ position ih =>
      intro inside
      apply le_antisymm
      · have before := ih (by omega)
        have here := diagonal position (by omega)
        rw [cheapest]
        refine le_trans (min_le_left _ _) (le_trans (min_le_right _ _) ?_)
        push_cast
        linarith
      · have bound := cheapest_ge_rows gap_nonneg reward_nonneg bounded (position + 1)
          (position + 1) inside inside
        linarith

end Bounds

section Trace

variable {costs : Grid Rat} {gap reward : Rat} {size : Nat}
  (paired : Diagonal costs size reward) (dear : Quantity.tolerance < gap)
  (reward_nonneg : 0 ≤ reward)

include paired dear reward_nonneg

/-- On the diagonal neither gap is near, and the pairing is. -/
theorem trace_diagonal : ∀ (fuel position : Nat) (found : List Step), position ≤ fuel →
    position ≤ size →
    trace costs gap (table costs gap) fuel position position found =
      .ok (diagonalSteps position ++ found) := by
  have gap_pos : 0 < gap := lt_trans Quantity.rat_tolerance_pos dear
  have cell : ∀ row column, row ≤ size → column ≤ size →
      (table costs gap).get (Quantity.whole 0) row column =
        cheapest (costs.get (Quantity.whole 0)) gap row column := by
    intro row column rowInside columnInside
    exact table_get paired.even gap (by rw [paired.height_eq]; exact rowInside)
      (by rw [paired.width_eq]; exact columnInside)
  intro fuel
  induction fuel with
  | zero =>
      intro position found enough _
      obtain rfl : position = 0 := by omega
      rfl
  | succ fuel ih =>
      intro position found enough inside
      cases position with
      | zero => rfl
      | succ position =>
          have here := cheapest_diagonal gap_pos.le reward_nonneg paired.bounded paired.diagonal
            (position + 1) inside
          have before := cheapest_diagonal gap_pos.le reward_nonneg paired.bounded paired.diagonal
            position (by omega)
          have left := cheapest_ge_columns gap_pos.le reward_nonneg paired.bounded (position + 1)
            position inside (by omega)
          have above := cheapest_ge_rows gap_pos.le reward_nonneg paired.bounded position
            (position + 1) (by omega) inside
          have pair := paired.diagonal position (by omega)
          push_cast at here left above
          -- a cell beside the diagonal costs at least a gap more than the last one on it
          have noInsertion : Quantity.near (cheapest (costs.get (Quantity.whole 0)) gap
              (position + 1) (position + 1) - cheapest (costs.get (Quantity.whole 0)) gap
              (position + 1) position) gap = false := by
            apply Quantity.rat_not_near
            linarith
          have noDeletion : Quantity.near (cheapest (costs.get (Quantity.whole 0)) gap
              (position + 1) (position + 1) - cheapest (costs.get (Quantity.whole 0)) gap
              position (position + 1)) gap = false := by
            apply Quantity.rat_not_near
            linarith
          have pairing : Quantity.near (cheapest (costs.get (Quantity.whole 0)) gap
              (position + 1) (position + 1) - cheapest (costs.get (Quantity.whole 0)) gap
              position position) (costs.get (Quantity.whole 0) position position) = true := by
            have equal : cheapest (costs.get (Quantity.whole 0)) gap (position + 1) (position + 1) -
                cheapest (costs.get (Quantity.whole 0)) gap position position =
                costs.get (Quantity.whole 0) position position := by
              linarith
            rw [equal]
            exact Quantity.rat_near_self _
          simp only [trace, Nat.add_sub_cancel, Quantity.rat_sub, cell _ _ inside inside,
            cell (position + 1) position inside (by omega),
            cell position (position + 1) (by omega) inside,
            cell position position (by omega) (by omega), noInsertion, noDeletion, pairing]
          simp [ih position _ (by omega) (by omega), diagonalSteps, List.range_succ]

theorem globalAlignment_diagonal :
    globalAlignment costs gap = .ok (diagonalSteps size, -(size * reward)) := by
  have gap_nonneg : 0 ≤ gap := (lt_trans Quantity.rat_tolerance_pos dear).le
  have traced := trace_diagonal paired dear reward_nonneg (size + size) size [] (by omega) le_rfl
  have corner := table_get paired.even gap (le_of_eq paired.height_eq.symm)
    (le_of_eq paired.width_eq.symm)
  rw [cheapest_diagonal gap_nonneg reward_nonneg paired.bounded paired.diagonal size le_rfl] at corner
  simp only [globalAlignment, paired.height_eq, paired.width_eq, traced, corner, List.append_nil]
  rfl

end Trace

end FlowAlign.Align
