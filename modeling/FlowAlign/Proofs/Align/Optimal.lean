import FlowAlign.Proofs.Align.Cheapest
import FlowAlign.Proofs.Align.Path
import Mathlib.Algebra.BigOperators.Group.List.Basic
import Mathlib.Data.List.Induction
import Mathlib.Order.Bounds.Basic

/-!
Global alignments over exact rationals. The table holds the least total cost of all alignments, the
trace through it always finds a way back, and each of its steps exceeds what the table says by at most
the tolerance.
-/

namespace FlowAlign.Align

/-- Every position of both sequences is taken once, in order. -/
def Aligns (height width : Nat) (steps : List Step) : Prop :=
  steps.filterMap Step.row? = List.range height ∧ steps.filterMap Step.column? = List.range width

theorem path_of_ranges : ∀ (steps : List Step) (row column rows columns : Nat),
    steps.filterMap Step.row? = List.range' row rows →
    steps.filterMap Step.column? = List.range' column columns →
    Path row column steps (row + rows) (column + columns) := by
  intro steps
  induction steps with
  | nil =>
      intro row column rows columns rowsEq columnsEq
      obtain rfl : rows = 0 := by simpa using rowsEq.symm
      obtain rfl : columns = 0 := by simpa using columnsEq.symm
      exact .done
  | cons step rest ih =>
      intro row column rows columns rowsEq columnsEq
      cases step with
      | insertion position =>
          simp only [List.filterMap_cons, Step.row?, Step.column?] at rowsEq columnsEq
          cases columns with
          | zero => simp at columnsEq
          | succ columns =>
              rw [List.range'_succ, List.cons.injEq] at columnsEq
              have tail := ih row (column + 1) rows columns rowsEq columnsEq.2
              rw [Nat.add_right_comm column 1 columns] at tail
              rw [columnsEq.1]
              exact .insertion tail
      | deletion position =>
          simp only [List.filterMap_cons, Step.row?, Step.column?] at rowsEq columnsEq
          cases rows with
          | zero => simp at rowsEq
          | succ rows =>
              rw [List.range'_succ, List.cons.injEq] at rowsEq
              have tail := ih (row + 1) column rows columns rowsEq.2 columnsEq
              rw [Nat.add_right_comm row 1 rows] at tail
              rw [rowsEq.1]
              exact .deletion tail
      | pairing position counterpart =>
          simp only [List.filterMap_cons, Step.row?, Step.column?] at rowsEq columnsEq
          cases rows with
          | zero => simp at rowsEq
          | succ rows =>
              cases columns with
              | zero => simp at columnsEq
              | succ columns =>
                  rw [List.range'_succ, List.cons.injEq] at rowsEq columnsEq
                  have tail := ih (row + 1) (column + 1) rows columns rowsEq.2 columnsEq.2
                  rw [Nat.add_right_comm row 1 rows, Nat.add_right_comm column 1 columns] at tail
                  rw [rowsEq.1, columnsEq.1]
                  exact .pairing tail

theorem aligns_iff_path {height width : Nat} {steps : List Step} :
    Aligns height width steps ↔ Path 0 0 steps height width := by
  constructor
  · rintro ⟨rows, columns⟩
    rw [List.range_eq_range'] at rows columns
    simpa using path_of_ranges steps 0 0 height width rows columns
  · intro path
    refine ⟨?_, ?_⟩
    · rw [path.rows_eq, List.range_eq_range', Nat.sub_zero]
    · rw [path.columns_eq, List.range_eq_range', Nat.sub_zero]

def stepCost (cost : Nat → Nat → Rat) (gap : Rat) : Step → Rat
  | .insertion _ => gap
  | .deletion _ => gap
  | .pairing row column => cost row column

/-- The costs of the pairs and of the gaps together. -/
def totalCost (cost : Nat → Nat → Rat) (gap : Rat) (steps : List Step) : Rat :=
  (steps.map (stepCost cost gap)).sum

section Recurrence

variable (cost : Nat → Nat → Rat) (gap : Rat)

@[simp] theorem totalCost_nil : totalCost cost gap [] = 0 :=
  rfl

@[simp] theorem totalCost_cons (step : Step) (rest : List Step) :
    totalCost cost gap (step :: rest) = stepCost cost gap step + totalCost cost gap rest := by
  simp [totalCost]

@[simp] theorem totalCost_append (first second : List Step) :
    totalCost cost gap (first ++ second) = totalCost cost gap first + totalCost cost gap second := by
  simp [totalCost]

@[simp] theorem cheapest_corner : cheapest cost gap 0 0 = 0 := by
  rw [cheapest]
  simp

theorem cheapest_insertion_le (row column : Nat) :
    cheapest cost gap row (column + 1) ≤ cheapest cost gap row column + gap := by
  cases row with
  | zero =>
      rw [cheapest, cheapest]
      push_cast
      linarith
  | succ row =>
      rw [cheapest]
      exact min_le_right _ _

theorem cheapest_deletion_le (row column : Nat) :
    cheapest cost gap (row + 1) column ≤ cheapest cost gap row column + gap := by
  rw [← cheapest_flip, ← cheapest_flip cost gap row column]
  exact cheapest_insertion_le _ gap column row

theorem cheapest_pairing_le (row column : Nat) :
    cheapest cost gap (row + 1) (column + 1) ≤ cheapest cost gap row column + cost row column := by
  rw [cheapest]
  exact le_trans (min_le_left _ _) (min_le_right _ _)

/-- No step undercuts the table, so no path does. -/
theorem cheapest_le_total {row column lastRow lastColumn : Nat} {steps : List Step}
    (path : Path row column steps lastRow lastColumn) :
    cheapest cost gap lastRow lastColumn ≤
      cheapest cost gap row column + totalCost cost gap steps := by
  induction path with
  | done => simp
  | @insertion row column rest lastRow lastColumn tail ih =>
      have step := cheapest_insertion_le cost gap row column
      rw [totalCost_cons, stepCost]
      linarith
  | @deletion row column rest lastRow lastColumn tail ih =>
      have step := cheapest_deletion_le cost gap row column
      rw [totalCost_cons, stepCost]
      linarith
  | @pairing row column rest lastRow lastColumn tail ih =>
      have step := cheapest_pairing_le cost gap row column
      rw [totalCost_cons, stepCost]
      linarith

/-- A cell is reached from a neighbour at exactly the cost of the step between them. -/
theorem cheapest_step (row column : Nat) (positive : 0 < row + column) :
    (∃ before, column = before + 1 ∧
      cheapest cost gap row column = cheapest cost gap row before + gap) ∨
    (∃ above, row = above + 1 ∧
      cheapest cost gap row column = cheapest cost gap above column + gap) ∨
    ∃ above before, row = above + 1 ∧ column = before + 1 ∧
      cheapest cost gap row column = cheapest cost gap above before + cost above before := by
  cases row with
  | zero =>
      obtain ⟨before, rfl⟩ : ∃ before, column = before + 1 := ⟨column - 1, by omega⟩
      refine Or.inl ⟨before, rfl, ?_⟩
      rw [cheapest, cheapest]
      push_cast
      ring
  | succ above =>
      cases column with
      | zero =>
          refine Or.inr (Or.inl ⟨above, rfl, ?_⟩)
          rw [← cheapest_flip, ← cheapest_flip cost gap above 0, cheapest, cheapest]
          push_cast
          ring
      | succ before =>
          rcases min_choice (min (cheapest cost gap above (before + 1) + gap)
              (cheapest cost gap above before + cost above before))
              (cheapest cost gap (above + 1) before + gap) with entered | inserted
          · rcases min_choice (cheapest cost gap above (before + 1) + gap)
                (cheapest cost gap above before + cost above before) with deleted | paired
            · refine Or.inr (Or.inl ⟨above, rfl, ?_⟩)
              rw [cheapest, entered, deleted]
            · refine Or.inr (Or.inr ⟨above, before, rfl, rfl, ?_⟩)
              rw [cheapest, entered, paired]
          · refine Or.inl ⟨before, rfl, ?_⟩
            rw [cheapest, inserted]

theorem cheapest_attained : ∀ (size row column : Nat), row + column = size →
    ∃ steps, Path 0 0 steps row column ∧ totalCost cost gap steps = cheapest cost gap row column := by
  intro size
  induction size using Nat.strongRecOn with
  | ind size ih =>
      intro row column isSize
      by_cases corner : row + column = 0
      · obtain ⟨rfl, rfl⟩ : row = 0 ∧ column = 0 := by omega
        exact ⟨[], .done, by simp⟩
      · rcases cheapest_step cost gap row column (by omega) with
          ⟨before, rfl, attained⟩ | ⟨above, rfl, attained⟩ | ⟨above, before, rfl, rfl, attained⟩
        · obtain ⟨steps, path, total⟩ := ih (row + before) (by omega) row before rfl
          refine ⟨steps ++ [.insertion before], path.append (.insertion .done), ?_⟩
          simp [total, attained, stepCost]
        · obtain ⟨steps, path, total⟩ := ih (above + column) (by omega) above column rfl
          refine ⟨steps ++ [.deletion above], path.append (.deletion .done), ?_⟩
          simp [total, attained, stepCost]
        · obtain ⟨steps, path, total⟩ := ih (above + before) (by omega) above before rfl
          refine ⟨steps ++ [.pairing above before], path.append (.pairing .done), ?_⟩
          simp [total, attained, stepCost]

/-- What the table holds for two whole sequences is the least total cost of their alignments. -/
theorem cheapest_isLeast (height width : Nat) :
    IsLeast {total | ∃ steps, Aligns height width steps ∧ totalCost cost gap steps = total}
      (cheapest cost gap height width) := by
  constructor
  · obtain ⟨steps, path, total⟩ := cheapest_attained cost gap (height + width) height width rfl
    exact ⟨steps, aligns_iff_path.mpr path, total⟩
  · rintro total ⟨steps, aligned, rfl⟩
    have bound := cheapest_le_total cost gap (aligns_iff_path.mp aligned)
    rwa [cheapest_corner, zero_add] at bound

end Recurrence

/-- Steps from the corner to a cell that the table explains one by one, up to the tolerance. -/
inductive Trail (cost : Nat → Nat → Rat) (gap : Rat) : Nat → Nat → List Step → Prop
  | corner : Trail cost gap 0 0 []
  | step {row column lastRow lastColumn steps last} :
      Trail cost gap row column steps → Path row column [last] lastRow lastColumn →
      |cheapest cost gap lastRow lastColumn - cheapest cost gap row column -
        stepCost cost gap last| ≤ Quantity.tolerance →
      Trail cost gap lastRow lastColumn (steps ++ [last])

namespace Trail

variable {cost : Nat → Nat → Rat} {gap : Rat} {row column : Nat} {steps : List Step}

theorem path (trail : Trail cost gap row column steps) : Path 0 0 steps row column := by
  induction trail with
  | corner => exact .done
  | step _ last _ ih => exact ih.append last

/-- The tolerance is used at most once for every step. -/
theorem total_le (trail : Trail cost gap row column steps) :
    totalCost cost gap steps ≤
      cheapest cost gap row column + Quantity.tolerance * steps.length := by
  induction trail with
  | corner => simp
  | step _ _ close ih =>
      have bounds := abs_le.mp close
      rw [totalCost_append, totalCost_cons, totalCost_nil, List.length_append, List.length_singleton]
      push_cast
      linarith

/-- Two gaps lead past any pair, so no pair on a trail costs more than they do. -/
theorem pairing_le (trail : Trail cost gap row column steps) {first second : Nat}
    (member : Step.pairing first second ∈ steps) :
    cost first second ≤ 2 * gap + Quantity.tolerance := by
  induction trail with
  | corner => simp at member
  | @step row column lastRow lastColumn steps last _ lastPath close ih =>
      rcases List.mem_append.mp member with earlier | here
      · exact ih earlier
      · obtain rfl : Step.pairing first second = last := by simpa using here
        obtain ⟨rfl, rfl, rfl, rfl⟩ : row = first ∧ column = second ∧ lastRow = first + 1 ∧
            lastColumn = second + 1 := by
          cases lastPath with
          | pairing tail =>
              cases tail with
              | done => exact ⟨rfl, rfl, rfl, rfl⟩
        have deleted := cheapest_deletion_le cost gap row column
        have inserted := cheapest_insertion_le cost gap (row + 1) column
        have bounds := abs_le.mp close
        rw [stepCost] at bounds
        linarith

end Trail

section Latest

variable (cost : Nat → Nat → Rat) (gap : Rat)

/-- The table explains a step between two cells up to the tolerance. -/
structure Explained (row column : Nat) (last : Step) (lastRow lastColumn : Nat) : Prop where
  path : Path row column [last] lastRow lastColumn
  close : |cheapest cost gap lastRow lastColumn - cheapest cost gap row column -
    stepCost cost gap last| ≤ Quantity.tolerance

/-- A trail on which every step is of the first kind that the table explains, looking back from its
cell. -/
inductive Latest : Nat → Nat → List Step → Prop
  | corner : Latest 0 0 []
  | step {row column lastRow lastColumn steps last} :
      Latest row column steps → Explained cost gap row column last lastRow lastColumn →
      (∀ otherRow otherColumn other,
        Explained cost gap otherRow otherColumn other lastRow lastColumn → last.rank ≤ other.rank) →
      Latest lastRow lastColumn (steps ++ [last])

variable {cost gap} {row column lastRow lastColumn position : Nat} {steps : List Step}

theorem Explained.insertion
    (explained : Explained cost gap row column (.insertion position) lastRow lastColumn) :
    0 < lastColumn ∧ |cheapest cost gap lastRow lastColumn -
      cheapest cost gap lastRow (lastColumn - 1) - gap| ≤ Quantity.tolerance := by
  obtain ⟨path, close⟩ := explained
  cases path with
  | insertion tail =>
      cases tail
      exact ⟨Nat.succ_pos _, close⟩

theorem Explained.deletion
    (explained : Explained cost gap row column (.deletion position) lastRow lastColumn) :
    0 < lastRow ∧ |cheapest cost gap lastRow lastColumn -
      cheapest cost gap (lastRow - 1) lastColumn - gap| ≤ Quantity.tolerance := by
  obtain ⟨path, close⟩ := explained
  cases path with
  | deletion tail =>
      cases tail
      exact ⟨Nat.succ_pos _, close⟩

theorem Latest.trail (latest : Latest cost gap row column steps) :
    Trail cost gap row column steps := by
  induction latest with
  | corner => exact .corner
  | step _ explained _ ih => exact .step ih explained.path explained.close

/-- A cheapest path is cheapest up to its last step, and the table explains that step. -/
theorem explained_of_cheapest {last : Step}
    (path : Path 0 0 (steps ++ [last]) lastRow lastColumn)
    (total : totalCost cost gap (steps ++ [last]) = cheapest cost gap lastRow lastColumn) :
    ∃ row column, Path 0 0 steps row column ∧
      totalCost cost gap steps = cheapest cost gap row column ∧
      Explained cost gap row column last lastRow lastColumn := by
  obtain ⟨row, column, front, behind⟩ := path.of_append
  have bound := cheapest_le_total cost gap front
  have step := cheapest_le_total cost gap behind
  rw [totalCost_append, totalCost_cons, totalCost_nil, add_zero] at total
  rw [totalCost_cons, totalCost_nil, add_zero] at step
  rw [cheapest_corner, zero_add] at bound
  refine ⟨row, column, front, by linarith, behind, ?_⟩
  have exact : cheapest cost gap lastRow lastColumn - cheapest cost gap row column -
      stepCost cost gap last = 0 := by
    linarith
  rw [exact, abs_zero]
  exact Quantity.rat_tolerance_pos.le

theorem Trail.of_cheapest (path : Path 0 0 steps lastRow lastColumn)
    (total : totalCost cost gap steps = cheapest cost gap lastRow lastColumn) :
    Trail cost gap lastRow lastColumn steps := by
  induction steps using List.reverseRecOn generalizing lastRow lastColumn with
  | nil =>
      cases path
      exact .corner
  | append_singleton steps last ih =>
      obtain ⟨row, column, front, frontTotal, explained⟩ := explained_of_cheapest path total
      exact .step (ih front frontTotal) explained.path explained.close

end Latest

section Trace

variable {costs : Grid Rat} (even : costs.Rectangular) (gap : Rat)

include even

theorem table_cell {row column : Nat} (rowInside : row ≤ costs.height)
    (columnInside : column ≤ costs.width) :
    (table costs gap).get 0 row column = cheapest (costs.get 0) gap row column := by
  have found := table_get even gap rowInside columnInside
  rwa [Quantity.rat_whole, Nat.cast_zero] at found

/-- Outside the corner a trace always finds a step, the first kind that the table explains. -/
theorem trace_step {row column : Nat} (rowInside : row ≤ costs.height)
    (columnInside : column ≤ costs.width) (positive : 0 < row + column) :
    ∃ beforeRow beforeColumn last,
      Explained (costs.get 0) gap beforeRow beforeColumn last row column ∧
      (∀ otherRow otherColumn other,
        Explained (costs.get 0) gap otherRow otherColumn other row column →
          last.rank ≤ other.rank) ∧
      ∀ (fuel : Nat) (found : List Step), trace costs gap (table costs gap) (fuel + 1) row column
        found = trace costs gap (table costs gap) fuel beforeRow beforeColumn (last :: found) := by
  have notCorner : ¬(row = 0 ∧ column = 0) := by omega
  have here := table_cell even gap rowInside columnInside
  have left := table_cell even gap rowInside (show column - 1 ≤ costs.width by omega)
  have above := table_cell even gap (show row - 1 ≤ costs.height by omega) columnInside
  have diagonal := table_cell even gap (show row - 1 ≤ costs.height by omega)
    (show column - 1 ≤ costs.width by omega)
  simp only [trace, Quantity.rat_whole, Nat.cast_zero, here, left, above, diagonal, notCorner,
    if_false, Quantity.rat_sub, Quantity.rat_near]
  by_cases inserted : 0 < column ∧ |cheapest (costs.get 0) gap row column -
      cheapest (costs.get 0) gap row (column - 1) - gap| ≤ Quantity.tolerance
  · obtain ⟨before, rfl⟩ : ∃ before, column = before + 1 := ⟨column - 1, by omega⟩
    refine ⟨row, before, .insertion before, ⟨.insertion .done, ?_⟩,
      fun _ _ _ _ => Nat.zero_le _, ?_⟩
    · rw [stepCost]
      exact inserted.2
    · intro fuel found
      rw [if_pos inserted, Nat.add_sub_cancel]
  by_cases deleted : 0 < row ∧ |cheapest (costs.get 0) gap row column -
      cheapest (costs.get 0) gap (row - 1) column - gap| ≤ Quantity.tolerance
  · obtain ⟨before, rfl⟩ : ∃ before, row = before + 1 := ⟨row - 1, by omega⟩
    refine ⟨before, column, .deletion before, ⟨.deletion .done, ?_⟩, ?_, ?_⟩
    · rw [stepCost]
      exact deleted.2
    · intro otherRow otherColumn other explained
      cases other with
      | insertion position => exact absurd explained.insertion inserted
      | deletion position => exact Nat.le_refl _
      | pairing position counterpart => exact Nat.le_succ _
    · intro fuel found
      rw [if_neg inserted, if_pos deleted, Nat.add_sub_cancel]
  -- neither gap is near, so the exact step into the cell is the pairing
  obtain ⟨before, rfl, attained⟩ | ⟨before, rfl, attained⟩ | ⟨first, second, rfl, rfl, attained⟩ :=
    cheapest_step (costs.get 0) gap row column positive
  · refine absurd ⟨by omega, ?_⟩ inserted
    rw [Nat.add_sub_cancel, attained, add_sub_cancel_left, sub_self, abs_zero]
    exact Quantity.rat_tolerance_pos.le
  · refine absurd ⟨by omega, ?_⟩ deleted
    rw [Nat.add_sub_cancel, attained, add_sub_cancel_left, sub_self, abs_zero]
    exact Quantity.rat_tolerance_pos.le
  · have paired : |cheapest (costs.get 0) gap (first + 1) (second + 1) -
        cheapest (costs.get 0) gap first second - costs.get 0 first second| ≤
        Quantity.tolerance := by
      rw [attained, add_sub_cancel_left, sub_self, abs_zero]
      exact Quantity.rat_tolerance_pos.le
    refine ⟨first, second, .pairing first second, ⟨.pairing .done, ?_⟩, ?_, ?_⟩
    · rw [stepCost]
      exact paired
    · intro otherRow otherColumn other explained
      cases other with
      | insertion position => exact absurd explained.insertion inserted
      | deletion position => exact absurd explained.deletion deleted
      | pairing position counterpart => exact Nat.le_refl _
    · intro fuel found
      rw [if_neg inserted, if_neg deleted, Nat.add_sub_cancel, Nat.add_sub_cancel,
        if_pos ⟨by omega, by omega, paired⟩]

theorem trace_latest : ∀ (fuel row column : Nat) (found : List Step), row + column ≤ fuel →
    row ≤ costs.height → column ≤ costs.width →
    ∃ steps, trace costs gap (table costs gap) fuel row column found = .ok (steps ++ found) ∧
      Latest (costs.get 0) gap row column steps := by
  intro fuel
  induction fuel with
  | zero =>
      intro row column found enough _ _
      obtain ⟨rfl, rfl⟩ : row = 0 ∧ column = 0 := by omega
      exact ⟨[], rfl, .corner⟩
  | succ fuel ih =>
      intro row column found enough rowInside columnInside
      by_cases corner : row = 0 ∧ column = 0
      · obtain ⟨rfl, rfl⟩ := corner
        exact ⟨[], rfl, .corner⟩
      · obtain ⟨beforeRow, beforeColumn, last, explained, foremost, unfolds⟩ :=
          trace_step even gap rowInside columnInside (by omega)
        have rows := explained.path.row_le
        have columns := explained.path.column_le
        have fewer : beforeRow + beforeColumn < row + column := by
          cases explained.path with
          | insertion tail => have bound := tail.column_le; omega
          | deletion tail => have bound := tail.row_le; omega
          | pairing tail => have bound := tail.row_le; omega
        obtain ⟨steps, traced, latest⟩ := ih beforeRow beforeColumn (last :: found) (by omega)
          (by omega) (by omega)
        refine ⟨steps ++ [last], ?_, .step latest explained foremost⟩
        rw [unfolds, traced, List.append_assoc, List.singleton_append]

theorem globalAlignment_latest :
    ∃ steps, globalAlignment costs gap =
        .ok (steps, cheapest (costs.get 0) gap costs.height costs.width) ∧
      Latest (costs.get 0) gap costs.height costs.width steps := by
  obtain ⟨steps, traced, latest⟩ := trace_latest even gap (costs.height + costs.width) costs.height
    costs.width [] le_rfl le_rfl le_rfl
  refine ⟨steps, ?_, latest⟩
  rw [List.append_nil] at traced
  have corner := table_cell even gap (le_refl costs.height) (le_refl costs.width)
  simp only [globalAlignment, traced, Quantity.rat_whole, Nat.cast_zero, corner]
  rfl

theorem globalAlignment_trail :
    ∃ steps, globalAlignment costs gap =
        .ok (steps, cheapest (costs.get 0) gap costs.height costs.width) ∧
      Trail (costs.get 0) gap costs.height costs.width steps := by
  obtain ⟨steps, found, latest⟩ := globalAlignment_latest even gap
  exact ⟨steps, found, latest.trail⟩

end Trace

/-- An alignment is always found. Its cost is reported as the least total cost of all alignments, and
its own total cost exceeds that by no more than the tolerance for every entry. -/
theorem globalAlignment_optimal (costs : Grid Rat) (gap : Rat) (even : costs.Rectangular) :
    ∃ steps cost, globalAlignment costs gap = .ok (steps, cost) ∧
      Aligns costs.height costs.width steps ∧
      IsLeast {total | ∃ other, Aligns costs.height costs.width other ∧
        totalCost (costs.get 0) gap other = total} cost ∧
      cost ≤ totalCost (costs.get 0) gap steps ∧
      totalCost (costs.get 0) gap steps ≤ cost + Quantity.tolerance * steps.length := by
  obtain ⟨steps, found, trail⟩ := globalAlignment_trail even gap
  have aligned : Aligns costs.height costs.width steps := aligns_iff_path.mpr trail.path
  have least := cheapest_isLeast (costs.get 0) gap costs.height costs.width
  exact ⟨steps, _, found, aligned, least, least.2 ⟨steps, aligned, rfl⟩, trail.total_le⟩

/-- Costs below zero, and a gap that gains as well. -/
def gainfulCosts : Grid Rat :=
  { width := 3, rows := [[-1, 1 / 2, 3], [2, -1 / 3, 0]] }

theorem globalAlignment_optimal_gainful :
    gainfulCosts.Rectangular ∧
    ∃ steps cost, globalAlignment gainfulCosts (-1 / 4) = .ok (steps, cost) ∧
      Aligns 2 3 steps ∧
      IsLeast {total | ∃ other, Aligns 2 3 other ∧
        totalCost (gainfulCosts.get 0) (-1 / 4) other = total} cost ∧
      cost ≤ totalCost (gainfulCosts.get 0) (-1 / 4) steps ∧
      totalCost (gainfulCosts.get 0) (-1 / 4) steps ≤ cost + Quantity.tolerance * steps.length := by
  have even : gainfulCosts.Rectangular := by simp [Grid.Rectangular, gainfulCosts]
  exact ⟨even, globalAlignment_optimal gainfulCosts (-1 / 4) even⟩

end FlowAlign.Align
