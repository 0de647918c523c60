import FlowAlign.Edit.Script
import FlowAlign.Proofs.Edit.Levenshtein
import FlowAlign.Proofs.Edit.Spread
import Mathlib.Algebra.Order.Group.Int
import Mathlib.Data.List.Infix

/-!
The distance table. Its rows belong to the beginnings of the first sequence and its columns to those of
the second one, and every cell is the edit distance of the two.
-/

namespace FlowAlign.Edit

variable {β : Type}

theorem inits_eq_cons (items : List β) : ∃ later, items.inits = [] :: later := by
  cases items with
  | nil => exact ⟨[], rfl⟩
  | cons item rest => exact ⟨_, List.inits_cons item rest⟩

theorem getLastD_map_inits {γ : Type} (items : List β) (view : List β → γ) (absent : γ) :
    (items.inits.map view).getLastD absent = view items := by
  simp [List.getLastD_eq_getLast?, List.getLast?_eq_getElem?, List.getElem_inits]

theorem ramp_eq (width : Nat) : ramp width = multiples 1 0 (width + 1) := by
  simp [ramp, multiples, List.range_eq_range']

theorem spread_eq (first : Int) (candidates : List Int) :
    spread candidates.length (first :: candidates) = settle 1 first candidates := by
  have settled := runningLeast_settle 1 candidates 0 first
  simpa only [spread, ramp_eq, multiples_succ, List.zipWith_cons_cons] using settled

variable [DecidableEq β]

def distances (before : List β) (secondary : List β) : List Int :=
  secondary.inits.map fun part => (levenshtein before part : Int)

theorem length_distances (before secondary : List β) :
    (distances before secondary).length = secondary.length + 1 := by
  rw [distances, List.length_map, List.length_inits]

theorem length_fromAbove (symbol : β) : ∀ (secondary : List β) (row : List Int),
    row.length = secondary.length + 1 → (fromAbove symbol secondary row).length = secondary.length := by
  intro secondary
  induction secondary with
  | nil =>
      intro row _
      rw [fromAbove]
      · rfl
      · simp
  | cons other rest ih =>
      intro row size
      obtain ⟨diagonal, above, later, rfl⟩ : ∃ diagonal above later, row = diagonal :: above :: later := by
        match row, size with
        | diagonal :: above :: later, _ => exact ⟨diagonal, above, later, rfl⟩
      rw [fromAbove, List.length_cons, ih _ (by simpa using size), List.length_cons]

/-- Where the cells of the row above are distances, so are those that a row settles on. -/
theorem settle_fromAbove (before : List β) (symbol : β) : ∀ rest done : List β,
    settle 1 (levenshtein (before ++ [symbol]) done : Int) (fromAbove symbol rest
      (rest.inits.map fun part => (levenshtein before (done ++ part) : Int))) =
      rest.inits.map fun part => (levenshtein (before ++ [symbol]) (done ++ part) : Int) := by
  -- on the symbols still to come; those that are done have their cells
  intro rest
  induction rest with
  | nil =>
      intro done
      simp [fromAbove, settle]
  | cons other rest ih =>
      intro done
      have next := ih (done ++ [other])
      obtain ⟨later, split⟩ := inits_eq_cons rest
      have cell : min (min ((levenshtein before (done ++ [other]) : Int) + 1)
          ((levenshtein before done : Int) + if other = symbol then 0 else 1))
          ((levenshtein (before ++ [symbol]) done : Int) + 1) =
          (levenshtein (before ++ [symbol]) (done ++ [other]) : Int) := by
        rw [levenshtein_concat]
        by_cases same : other = symbol
        · rw [if_pos same, if_pos same.symm]
          omega
        · rw [if_neg same, if_neg (Ne.symm same)]
          omega
      simp only [List.append_assoc, List.singleton_append] at next
      simp only [List.inits_cons, split, List.map_cons, List.map_map, Function.comp_def, fromAbove,
        settle, List.append_nil, cell] at next ⊢
      rw [next]

theorem nextRow_eq (before : List β) (symbol : β) (secondary : List β) :
    nextRow (before.length + 1) symbol secondary (distances before secondary) =
      distances (before ++ [symbol]) secondary := by
  have size := length_fromAbove symbol secondary _ (length_distances before secondary)
  have settled := settle_fromAbove before symbol secondary []
  rw [nextRow]
  nth_rewrite 1 [← size]
  rw [spread_eq]
  simpa [distances] using settled

theorem rowsFrom_eq (secondary : List β) : ∀ rest before : List β,
    rowsFrom secondary before.length (distances before secondary) rest =
      rest.inits.map fun more => distances (before ++ more) secondary := by
  intro rest
  induction rest with
  | nil =>
      intro before
      simp [rowsFrom]
  | cons symbol rest ih =>
      intro before
      have later := ih (before ++ [symbol])
      rw [List.length_append, List.length_singleton] at later
      rw [rowsFrom, nextRow_eq, later]
      simp [Function.comp_def]

/-- The cells of the table are the edit distances of all pairs of beginnings. -/
theorem rows_eq (primary secondary : List β) :
    rows primary secondary = primary.inits.map fun before => distances before secondary := by
  have start : ramp secondary.length = distances [] secondary := by
    apply List.ext_getElem
    · simp [ramp, length_distances]
    · intro column inside _
      have below : column ≤ secondary.length := by simpa [ramp, Nat.lt_succ_iff] using inside
      simp [ramp, distances, List.getElem_inits, below]
  have all := rowsFrom_eq secondary primary []
  simpa only [rows, start, List.length_nil, List.nil_append] using all

theorem distance_eq (primary secondary : List β) :
    distance primary secondary = levenshtein primary secondary := by
  cases primary with
  | nil => simp [distance]
  | cons symbol primary =>
      cases secondary with
      | nil => simp [distance]
      | cons other secondary =>
          simp only [distance, List.isEmpty_cons, Bool.or_self, Bool.false_eq_true, if_false,
            rows_eq, distances, getLastD_map_inits, Int.toNat_natCast]

theorem getElem?_rows {primary : List β} (secondary : List β) {row : Nat}
    (rowInside : row ≤ primary.length) :
    (rows primary secondary)[row]? = some (distances (primary.take row) secondary) := by
  have isRow : row < primary.length + 1 := by omega
  simp [rows_eq, isRow, List.getElem_inits]

theorem getElem?_distances (before : List β) {secondary : List β} {column : Nat}
    (columnInside : column ≤ secondary.length) :
    (distances before secondary)[column]? =
      some (levenshtein before (secondary.take column) : Int) := by
  have isColumn : column < secondary.length + 1 := by omega
  simp [distances, isColumn, List.getElem_inits]

theorem cell_rows {primary secondary : List β} {row column : Nat}
    (rowInside : row ≤ primary.length) (columnInside : column ≤ secondary.length) :
    cell (rows primary secondary) row column =
      levenshtein (primary.take row) (secondary.take column) := by
  simp only [cell, List.getD_eq_getElem?_getD, getElem?_rows secondary rowInside, Option.getD_some,
    getElem?_distances _ columnInside]

end FlowAlign.Edit
