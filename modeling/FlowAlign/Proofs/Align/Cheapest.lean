import FlowAlign.Align.Global
import FlowAlign.Proofs.Edit.Spread
import FlowAlign.Proofs.Quantity.Rational

/-!
The table of a global alignment over exact rationals. Spreading insertions along a row as a running
minimum gives the same cells as the plain recurrence, in which a cell is the least of a deletion, a
pairing and an insertion.
-/

namespace FlowAlign

namespace Grid

def Rectangular {β : Type} (grid : Grid β) : Prop :=
  ∀ row ∈ grid.rows, row.length = grid.width

theorem rows_eq {β : Type} {grid : Grid β} (even : grid.Rectangular) (absent : β) :
    grid.rows = (List.range grid.height).map fun row =>
      (List.range grid.width).map (grid.get absent row) := by
  apply List.ext_getElem
  · simp [height]
  · intro row rowInside _
    have inside : row < grid.height := rowInside
    have width : (grid.rows.get ⟨row, rowInside⟩).length = grid.width :=
      even _ (List.get_mem _ _)
    apply List.ext_getElem
    · simpa using width
    · intro column columnInside _
      simp [get, get?, rowInside, columnInside]

theorem get?_eq_some {β : Type} {grid : Grid β} (even : grid.Rectangular) (absent : β)
    {row column : Nat} (rowInside : row < grid.height) (columnInside : column < grid.width) :
    grid.get? row column = some (grid.get absent row column) := by
  have isRow := List.getElem?_eq_getElem rowInside
  have width := even _ (List.getElem_mem rowInside)
  rw [← width] at columnInside
  simp [get, get?, isRow, columnInside]

end Grid

namespace Align

/-- Cheapest cost of aligning the first elements of two sequences. -/
def cheapest (cost : Nat → Nat → Rat) (gap : Rat) : Nat → Nat → Rat
  | 0, column => column * gap
  | row + 1, 0 => (row + 1 : Nat) * gap
  | row + 1, column + 1 =>
      min (min (cheapest cost gap row (column + 1) + gap)
        (cheapest cost gap row column + cost row column)) (cheapest cost gap (row + 1) column + gap)

/-- Deletions and insertions cost the same, so the sequences may change places. -/
theorem cheapest_flip (cost : Nat → Nat → Rat) (gap : Rat) (row column : Nat) :
    cheapest (fun first second => cost second first) gap column row =
      cheapest cost gap row column := by
  induction row, column using cheapest.induct with
  | case1 column =>
      cases column with
      | zero => rw [cheapest, cheapest]
      | succ column => rw [cheapest, cheapest]
  | case2 row => rw [cheapest, cheapest]
  | case3 row column above diagonal left =>
      rw [cheapest, cheapest, above, diagonal, left, min_comm, min_comm (_ + gap) (_ + cost _ _),
        ← min_assoc]

theorem fromAbove_eq (gap : Rat) (cost above : Nat → Rat) : ∀ count start : Nat,
    fromAbove gap ((List.range' start count).map cost) ((List.range' start (count + 1)).map above) =
      (List.range' start count).map fun column =>
        min (above (column + 1) + gap) (above column + cost column) := by
  intro count
  induction count with
  | zero =>
      intro start
      rfl
  | succ count ih =>
      intro start
      have later := ih (start + 1)
      simp only [List.range'_succ, List.map_cons, fromAbove, Quantity.rat_least,
        Quantity.rat_add] at later ⊢
      rw [later]

theorem gaps_eq (width : Nat) (gap : Rat) :
    gaps width gap = (List.range' 0 (width + 1)).map fun column : Nat => column * gap := by
  simp [gaps, List.range_eq_range']

/-- A row settles on the cells of a recurrence along the row. -/
theorem settle_eq {gap : Rat} {cell candidate : Nat → Rat}
    (step : ∀ column, cell (column + 1) = min (candidate (column + 1)) (cell column + gap)) :
    ∀ count start : Nat, settle gap (cell start) ((List.range' (start + 1) count).map candidate) =
      (List.range' start (count + 1)).map cell := by
  intro count
  induction count with
  | zero =>
      intro start
      rfl
  | succ count ih =>
      intro start
      rw [List.range'_succ, List.range'_succ, List.map_cons, List.map_cons, settle, ← step start,
        ih (start + 1)]

/-- Spreading insertions along the candidates of a row closes the recurrence along the row. -/
theorem spread_eq {gap : Rat} {cell candidate : Nat → Rat} (first : cell 0 = candidate 0)
    (step : ∀ column, cell (column + 1) = min (candidate (column + 1)) (cell column + gap))
    (width : Nat) :
    spread width gap ((List.range' 0 (width + 1)).map candidate) =
      (List.range' 0 (width + 1)).map cell := by
  have steps : gaps width gap = multiples gap 0 (width + 1) := by
    simp [gaps_eq, multiples]
  have least : (Quantity.least : Rat → Rat → Rat) = min := by
    funext one other
    exact Quantity.rat_least one other
  have settled := runningLeast_settle gap ((List.range' 1 width).map candidate) 0 (cell 0)
  rw [settle_eq step, List.length_map, List.length_range'] at settled
  rw [← settled, List.range'_succ, List.map_cons, ← first]
  simp only [spread, steps, least, multiples_succ, List.zipWith_cons_cons, Quantity.rat_sub,
    Quantity.rat_add]

/-- Cheapest cost of the ways into a cell that do not end with an insertion after the first column. -/
def enter (cost : Nat → Nat → Rat) (gap : Rat) (row : Nat) : Nat → Rat
  | 0 => (row + 1 : Nat) * gap
  | column + 1 =>
      min (cheapest cost gap row (column + 1) + gap) (cheapest cost gap row column + cost row column)

theorem nextRow_eq (cost : Nat → Nat → Rat) (gap : Rat) (width row : Nat) :
    nextRow width gap (row + 1) ((List.range' 0 width).map (cost row))
      ((List.range' 0 (width + 1)).map (cheapest cost gap row)) =
      (List.range' 0 (width + 1)).map (cheapest cost gap (row + 1)) := by
  have above := fromAbove_eq gap (cost row) (cheapest cost gap row) width 0
  have candidates : Quantity.whole (row + 1) * gap :: fromAbove gap
      ((List.range' 0 width).map (cost row))
      ((List.range' 0 (width + 1)).map (cheapest cost gap row)) =
      (List.range' 0 (width + 1)).map (enter cost gap row) := by
    rw [above, List.range'_succ, List.map_cons, List.range'_eq_map_range,
      List.range'_eq_map_range, List.map_map, List.map_map]
    simp [Function.comp_def, Nat.add_comm, enter]
  rw [nextRow, candidates]
  apply spread_eq
  · rw [cheapest, enter]
  · intro column
    rw [cheapest, enter]

theorem rowsFrom_eq (cost : Nat → Nat → Rat) (gap : Rat) (width : Nat) : ∀ count row : Nat,
    rowsFrom width gap row ((List.range' 0 (width + 1)).map (cheapest cost gap row))
      ((List.range' row count).map fun row => (List.range' 0 width).map (cost row)) =
      (List.range' row (count + 1)).map fun row =>
        (List.range' 0 (width + 1)).map (cheapest cost gap row) := by
  intro count
  induction count with
  | zero =>
      intro row
      rfl
  | succ count ih =>
      intro row
      have here : List.range' row (count + 1) = row :: List.range' (row + 1) count :=
        List.range'_succ
      have next : List.range' row (count + 1 + 1) = row :: List.range' (row + 1) (count + 1) :=
        List.range'_succ
      rw [here, next, List.map_cons, List.map_cons, rowsFrom, nextRow_eq, ih (row + 1)]

/-- The table holds the cheapest costs of all pairs of beginnings. -/
theorem table_get {costs : Grid Rat} (even : costs.Rectangular) (gap : Rat) {row column : Nat}
    (rowInside : row ≤ costs.height) (columnInside : column ≤ costs.width) :
    (table costs gap).get (Quantity.whole 0) row column =
      cheapest (costs.get (Quantity.whole 0)) gap row column := by
  have start : gaps costs.width gap = (List.range' 0 (costs.width + 1)).map
      (cheapest (costs.get (Quantity.whole 0)) gap 0) := by
    rw [gaps_eq]
    apply List.map_congr_left
    intro column _
    rw [cheapest]
  have rows := Grid.rows_eq even (Quantity.whole 0)
  rw [List.range_eq_range', List.range_eq_range'] at rows
  have cells := rowsFrom_eq (costs.get (Quantity.whole 0)) gap costs.width costs.height 0
  rw [← start, ← rows] at cells
  have rowBelow : row < costs.height + 1 := by omega
  have columnBelow : column < costs.width + 1 := by omega
  simp [Grid.get, Grid.get?, table, cells, rowBelow, columnBelow]

end Align

end FlowAlign
