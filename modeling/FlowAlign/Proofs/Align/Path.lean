import FlowAlign.Align.Global

/-!
Alignments as paths. A path leads from one pair of positions to another and takes the positions of
both sequences in order, so that none is left out, repeated or crossed. Every alignment that is traced
through a table is such a path, whatever the table holds.
-/

namespace FlowAlign

namespace Step

def row? : Step → Option Nat
  | insertion _ => none
  | deletion row => some row
  | pairing row _ => some row

def column? : Step → Option Nat
  | insertion column => some column
  | deletion _ => none
  | pairing _ column => some column

/-- A trace looks for an insertion first and for a pairing last. -/
def rank : Step → Nat
  | insertion _ => 0
  | deletion _ => 1
  | pairing _ _ => 2

end Step

namespace Align

inductive Path : Nat → Nat → List Step → Nat → Nat → Prop
  | done {row column} : Path row column [] row column
  | insertion {row column rest lastRow lastColumn} :
      Path row (column + 1) rest lastRow lastColumn →
      Path row column (.insertion column :: rest) lastRow lastColumn
  | deletion {row column rest lastRow lastColumn} :
      Path (row + 1) column rest lastRow lastColumn →
      Path row column (.deletion row :: rest) lastRow lastColumn
  | pairing {row column rest lastRow lastColumn} :
      Path (row + 1) (column + 1) rest lastRow lastColumn →
      Path row column (.pairing row column :: rest) lastRow lastColumn

namespace Path

variable {row column middleRow middleColumn lastRow lastColumn : Nat} {steps rest : List Step}

theorem append (first : Path row column steps middleRow middleColumn)
    (second : Path middleRow middleColumn rest lastRow lastColumn) :
    Path row column (steps ++ rest) lastRow lastColumn := by
  induction first with
  | done => exact second
  | insertion _ ih => exact .insertion (ih second)
  | deletion _ ih => exact .deletion (ih second)
  | pairing _ ih => exact .pairing (ih second)

theorem row_le (path : Path row column steps lastRow lastColumn) : row ≤ lastRow := by
  induction path with
  | done => exact Nat.le_refl _
  | insertion _ ih => exact ih
  | deletion _ ih => omega
  | pairing _ ih => omega

theorem column_le (path : Path row column steps lastRow lastColumn) : column ≤ lastColumn := by
  induction path with
  | done => exact Nat.le_refl _
  | insertion _ ih => omega
  | deletion _ ih => exact ih
  | pairing _ ih => omega

theorem of_append (path : Path row column (steps ++ rest) lastRow lastColumn) :
    ∃ middleRow middleColumn, Path row column steps middleRow middleColumn ∧
      Path middleRow middleColumn rest lastRow lastColumn := by
  induction steps generalizing row column with
  | nil => exact ⟨row, column, .done, path⟩
  | cons step steps ih =>
      cases path with
      | insertion tail =>
          obtain ⟨middleRow, middleColumn, front, behind⟩ := ih tail
          exact ⟨middleRow, middleColumn, .insertion front, behind⟩
      | deletion tail =>
          obtain ⟨middleRow, middleColumn, front, behind⟩ := ih tail
          exact ⟨middleRow, middleColumn, .deletion front, behind⟩
      | pairing tail =>
          obtain ⟨middleRow, middleColumn, front, behind⟩ := ih tail
          exact ⟨middleRow, middleColumn, .pairing front, behind⟩

theorem of_cons {step : Step} (path : Path row column (step :: rest) lastRow lastColumn) :
    ∃ middleRow middleColumn, Path row column [step] middleRow middleColumn ∧
      Path middleRow middleColumn rest lastRow lastColumn := by
  rw [← List.singleton_append] at path
  exact path.of_append

/-- The kind of the last step and the cell that it leads to say where it comes from. -/
theorem single_eq {row' column' : Nat} {step other : Step}
    (path : Path row column [step] lastRow lastColumn)
    (path' : Path row' column' [other] lastRow lastColumn) (same : step.rank = other.rank) :
    row = row' ∧ column = column' ∧ step = other := by
  cases path with
  | insertion tail =>
      cases tail
      cases path' with
      | insertion tail' => cases tail'; exact ⟨rfl, rfl, rfl⟩
      | deletion _ => cases same
      | pairing _ => cases same
  | deletion tail =>
      cases tail
      cases path' with
      | insertion _ => cases same
      | deletion tail' => cases tail'; exact ⟨rfl, rfl, rfl⟩
      | pairing _ => cases same
  | pairing tail =>
      cases tail
      cases path' with
      | insertion _ => cases same
      | deletion _ => cases same
      | pairing tail' => cases tail'; exact ⟨rfl, rfl, rfl⟩

theorem range'_succ_front {start stop : Nat} (below : start + 1 ≤ stop) :
    start :: List.range' (start + 1) (stop - (start + 1)) = List.range' start (stop - start) := by
  have size : stop - start = (stop - (start + 1)) + 1 := by omega
  rw [size, List.range'_succ]

/-- A path takes every position of the first sequence once, in order. -/
theorem rows_eq (path : Path row column steps lastRow lastColumn) :
    steps.filterMap Step.row? = List.range' row (lastRow - row) := by
  induction path with
  | done => simp
  | insertion _ ih => simp only [List.filterMap_cons, Step.row?, ih]
  | deletion tail ih =>
      simp only [List.filterMap_cons, Step.row?, ih]
      exact range'_succ_front tail.row_le
  | pairing tail ih =>
      simp only [List.filterMap_cons, Step.row?, ih]
      exact range'_succ_front tail.row_le

theorem columns_eq (path : Path row column steps lastRow lastColumn) :
    steps.filterMap Step.column? = List.range' column (lastColumn - column) := by
  induction path with
  | done => simp
  | insertion tail ih =>
      simp only [List.filterMap_cons, Step.column?, ih]
      exact range'_succ_front tail.column_le
  | deletion _ ih => simp only [List.filterMap_cons, Step.column?, ih]
  | pairing tail ih =>
      simp only [List.filterMap_cons, Step.column?, ih]
      exact range'_succ_front tail.column_le

/-- The steps to a cell say where they start. -/
theorem start_eq {row' column' : Nat} (path : Path row column steps lastRow lastColumn)
    (path' : Path row' column' steps lastRow lastColumn) : row = row' ∧ column = column' := by
  have rows := congrArg List.length (path.rows_eq.symm.trans path'.rows_eq)
  have columns := congrArg List.length (path.columns_eq.symm.trans path'.columns_eq)
  simp only [List.length_range'] at rows columns
  have rowsFit := And.intro path.row_le path'.row_le
  have columnsFit := And.intro path.column_le path'.column_le
  omega

theorem row_bound (path : Path row column steps lastRow lastColumn) {step : Step}
    (member : step ∈ steps) {position : Nat} (taken : step.row? = some position) :
    position < lastRow := by
  have listed : position ∈ steps.filterMap Step.row? :=
    List.mem_filterMap.mpr ⟨step, member, taken⟩
  rw [path.rows_eq, List.mem_range'_1] at listed
  omega

theorem column_bound (path : Path row column steps lastRow lastColumn) {step : Step}
    (member : step ∈ steps) {position : Nat} (taken : step.column? = some position) :
    position < lastColumn := by
  have listed : position ∈ steps.filterMap Step.column? :=
    List.mem_filterMap.mpr ⟨step, member, taken⟩
  rw [path.columns_eq, List.mem_range'_1] at listed
  omega

end Path

variable {α : Type} [Quantity α]

/-- Whatever the comparisons with the table decide, a trace ends with a path, or at a cell that no case
explains. -/
theorem trace_spec (costs : Grid α) (gap : α) (dist : Grid α) {lastRow lastColumn : Nat} :
    ∀ (fuel row column : Nat) (found : List Step), row + column ≤ fuel →
      Path row column found lastRow lastColumn →
      (∃ steps, trace costs gap dist fuel row column found = .ok steps ∧
        Path 0 0 steps lastRow lastColumn) ∨
      ∃ atRow atColumn, trace costs gap dist fuel row column found =
        .error (.inconsistentCell atRow atColumn) := by
  intro fuel
  induction fuel with
  | zero =>
      intro row column found enough behind
      obtain ⟨rfl, rfl⟩ : row = 0 ∧ column = 0 := by omega
      exact Or.inl ⟨found, rfl, behind⟩
  | succ fuel ih =>
      intro row column found enough behind
      simp only [trace]
      split
      · rename_i corner
        obtain ⟨rfl, rfl⟩ := corner
        exact Or.inl ⟨found, rfl, behind⟩
      · split
        · have back : column - 1 + 1 = column := by omega
          exact ih row (column - 1) _ (by omega) (.insertion (by rwa [back]))
        · split
          · have back : row - 1 + 1 = row := by omega
            exact ih (row - 1) column _ (by omega) (.deletion (by rwa [back]))
          · split
            · have backRow : row - 1 + 1 = row := by omega
              have backColumn : column - 1 + 1 = column := by omega
              exact ih (row - 1) (column - 1) _ (by omega)
                (.pairing (by rwa [backRow, backColumn]))
            · exact Or.inr ⟨row, column, rfl⟩

theorem globalAlignment_spec (costs : Grid α) (gap : α) :
    (∃ steps cost, globalAlignment costs gap = .ok (steps, cost) ∧
      Path 0 0 steps costs.height costs.width) ∨
    ∃ row column, globalAlignment costs gap = .error (.inconsistentCell row column) := by
  rcases trace_spec costs gap (table costs gap) (costs.height + costs.width) costs.height
      costs.width [] (Nat.le_refl _) .done with
    ⟨steps, traced, path⟩ | ⟨row, column, traced⟩
  · exact Or.inl ⟨steps, _, by rw [globalAlignment, traced]; rfl, path⟩
  · exact Or.inr ⟨row, column, by rw [globalAlignment, traced]; rfl⟩

theorem globalAlignment_path {costs : Grid α} {gap cost : α} {steps : List Step}
    (found : globalAlignment costs gap = .ok (steps, cost)) :
    Path 0 0 steps costs.height costs.width := by
  rcases globalAlignment_spec costs gap with ⟨traced, total, aligned, path⟩ | ⟨row, column, failed⟩
  · rw [found] at aligned
    cases aligned
    exact path
  · rw [found] at failed
    cases failed

theorem globalAlignment_error {costs : Grid α} {gap : α} {fault : AlignmentFault}
    (failed : globalAlignment costs gap = .error fault) :
    ∃ row column, fault = .inconsistentCell row column := by
  rcases globalAlignment_spec costs gap with ⟨traced, total, aligned, _⟩ | ⟨row, column, stopped⟩
  · rw [failed] at aligned
    cases aligned
  · rw [failed] at stopped
    cases stopped
    exact ⟨row, column, rfl⟩

end Align

end FlowAlign
