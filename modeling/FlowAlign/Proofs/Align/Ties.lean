import FlowAlign.Proofs.Align.Optimal
import Mathlib.Algebra.Group.Subgroup.ZPowers.Basic
import Mathlib.Algebra.Order.Ring.Abs
import Mathlib.Data.List.Basic

/-!
Ties between cheapest alignments. Where all costs are multiples of one unit above the tolerance, the
table explains a step exactly or not at all, so that the trace takes the first kind of step that leads
to a cheapest alignment. Read from its last entry on, the alignment it finds comes before every other
cheapest one, with insertions before deletions and these before pairs.
-/

namespace FlowAlign.Align

/-- The lexicographic order of alignments by the kinds of their entries, read from the last one on. -/
def Precedes (first second : List Step) : Prop :=
  first.reverse.map Step.rank < second.reverse.map Step.rank

theorem precedes_append_singleton {steps others : List Step} {last other : Step} :
    Precedes (steps ++ [last]) (others ++ [other]) ↔
      last.rank < other.rank ∨ last.rank = other.rank ∧ Precedes steps others := by
  simp only [Precedes, List.reverse_append, List.reverse_singleton, List.singleton_append,
    List.map_cons, List.cons_lt_cons_iff]

theorem le_of_append_lt_append {first second : Nat} {rest others : List Nat} :
    ∀ {common : List Nat}, common ++ first :: rest < common ++ second :: others → first ≤ second := by
  intro common
  induction common with
  | nil =>
      intro less
      rcases List.cons_lt_cons_iff.mp less with smaller | ⟨same, _⟩
      · exact smaller.le
      · exact same.le
  | cons value common ih =>
      intro less
      rcases List.cons_lt_cons_iff.mp less with smaller | ⟨_, later⟩
      · exact absurd smaller (lt_irrefl value)
      · exact ih later

/-- Alignments that end alike are told apart by the entries in front of that. -/
theorem Precedes.rank_le {front start behind : List Step} {entry other : Step}
    (precedes : Precedes (front ++ entry :: behind) (start ++ other :: behind)) :
    entry.rank ≤ other.rank := by
  simp only [Precedes, List.reverse_append, List.reverse_cons, List.append_assoc,
    List.singleton_append, List.map_append, List.map_cons] at precedes
  exact le_of_append_lt_append precedes

section Latest

variable {cost : Nat → Nat → Rat} {gap : Rat} {row column : Nat}

/-- No cheapest path comes before the one that the trace takes. -/
theorem Latest.precedes {steps : List Step} (latest : Latest cost gap row column steps) :
    ∀ others, Path 0 0 others row column →
      totalCost cost gap others = cheapest cost gap row column →
      others = steps ∨ Precedes steps others := by
  -- on the trace; another path is compared by its last step first, and by its front if that is alike
  induction latest with
  | corner =>
      intro others path _
      have rows := path.rows_eq
      have columns := path.columns_eq
      cases path with
      | done => exact Or.inl rfl
      | insertion tail => simp [Step.column?] at columns
      | deletion tail => simp [Step.row?] at rows
      | pairing tail => simp [Step.row?] at rows
  | @step _ _ lastRow lastColumn steps last _ explained foremost ih =>
      intro others path total
      rcases List.eq_nil_or_concat others with rfl | ⟨front, other, rfl⟩
      · cases path
        cases explained.path with
        | insertion tail => simpa using tail.column_le
        | deletion tail => simpa using tail.row_le
        | pairing tail => simpa using tail.row_le
      · rw [List.concat_eq_append] at path total ⊢
        obtain ⟨row, column, frontPath, frontTotal, otherExplained⟩ := explained_of_cheapest path total
        rw [precedes_append_singleton]
        rcases Nat.lt_or_eq_of_le (foremost row column other otherExplained) with less | same
        · exact Or.inr (Or.inl less)
        · obtain ⟨rfl, rfl, rfl⟩ := explained.path.single_eq otherExplained.path same
          rcases ih front frontPath frontTotal with rfl | precedes
          · exact Or.inl rfl
          · exact Or.inr (Or.inr ⟨rfl, precedes⟩)

end Latest

section Units

variable {unit : Rat}

theorem eq_zero_of_near {value : Rat} (coarse : Quantity.tolerance < unit)
    (multiple : value ∈ AddSubgroup.zmultiples unit) (near : |value| ≤ Quantity.tolerance) :
    value = 0 := by
  obtain ⟨count, rfl⟩ := AddSubgroup.mem_zmultiples_iff.mp multiple
  have positive : 0 < unit := lt_trans Quantity.rat_tolerance_pos coarse
  by_contra nonzero
  have counted : count ≠ 0 := by
    rintro rfl
    simp at nonzero
  have atLeast : (1 : Rat) ≤ |(count : Rat)| := by
    exact_mod_cast Int.one_le_abs counted
  rw [zsmul_eq_mul, abs_mul, abs_of_pos positive] at near
  have larger : unit ≤ |(count : Rat)| * unit := le_mul_of_one_le_left positive.le atLeast
  linarith

variable {cost : Nat → Nat → Rat} {gap : Rat} (gapMultiple : gap ∈ AddSubgroup.zmultiples unit)
  (costMultiple : ∀ row column, cost row column ∈ AddSubgroup.zmultiples unit)

include gapMultiple costMultiple

theorem cheapest_multiple (row column : Nat) :
    cheapest cost gap row column ∈ AddSubgroup.zmultiples unit := by
  induction row, column using cheapest.induct with
  | case1 column =>
      rw [cheapest, ← nsmul_eq_mul]
      exact nsmul_mem gapMultiple column
  | case2 row =>
      rw [cheapest, ← nsmul_eq_mul]
      exact nsmul_mem gapMultiple (row + 1)
  | case3 row column above diagonal left =>
      have deleted := add_mem above gapMultiple
      have paired := add_mem diagonal (costMultiple row column)
      have inserted := add_mem left gapMultiple
      rw [cheapest]
      rcases min_choice (min (cheapest cost gap row (column + 1) + gap)
          (cheapest cost gap row column + cost row column))
          (cheapest cost gap (row + 1) column + gap) with entered | entered
      · rw [entered]
        rcases min_choice (cheapest cost gap row (column + 1) + gap)
            (cheapest cost gap row column + cost row column) with least | least
        · rwa [least]
        · rwa [least]
      · rwa [entered]

theorem stepCost_multiple (step : Step) : stepCost cost gap step ∈ AddSubgroup.zmultiples unit := by
  cases step with
  | insertion column => exact gapMultiple
  | deletion row => exact gapMultiple
  | pairing row column => exact costMultiple row column

variable (coarse : Quantity.tolerance < unit) {row column lastRow lastColumn : Nat} {last : Step}

include coarse

/-- Among multiples of the unit the tolerance makes no difference. -/
theorem Explained.exact (explained : Explained cost gap row column last lastRow lastColumn) :
    cheapest cost gap lastRow lastColumn =
      cheapest cost gap row column + stepCost cost gap last := by
  have multiple := sub_mem (sub_mem (cheapest_multiple gapMultiple costMultiple lastRow lastColumn)
    (cheapest_multiple gapMultiple costMultiple row column))
    (stepCost_multiple gapMultiple costMultiple last)
  have exact := eq_zero_of_near coarse multiple explained.close
  linarith

theorem Latest.total_eq {steps : List Step} (latest : Latest cost gap row column steps) :
    totalCost cost gap steps = cheapest cost gap row column := by
  induction latest with
  | corner => simp
  | step _ explained _ ih =>
      rw [totalCost_append, totalCost_cons, totalCost_nil, add_zero, ih,
        explained.exact gapMultiple costMultiple coarse]

end Units

/-- The first of the cheapest alignments. Gaps come as late as possible: where it has a pair, no cheapest
alignment that goes on alike behind it has anything else. -/
structure Foremost (cost : Nat → Nat → Rat) (gap : Rat) (height width : Nat) (steps : List Step) :
    Prop where
  aligns : Aligns height width steps
  cheapest : ∀ others, Aligns height width others →
    totalCost cost gap steps ≤ totalCost cost gap others
  precedes : ∀ others, Aligns height width others →
    totalCost cost gap others = totalCost cost gap steps → others ≠ steps → Precedes steps others
  gaps_late : ∀ front row column behind, steps = front ++ .pairing row column :: behind →
    ∀ start other, Aligns height width (start ++ other :: behind) →
      totalCost cost gap (start ++ other :: behind) = totalCost cost gap steps →
      other = .pairing row column
  deletions_first : ∀ front column row behind,
    steps ≠ front ++ .insertion column :: .deletion row :: behind

section Order

variable {cost : Nat → Nat → Rat} {gap : Rat} {height width : Nat} {steps : List Step}
  (aligns : Aligns height width steps)
  (precedes : ∀ others, Aligns height width others →
    totalCost cost gap others = totalCost cost gap steps → others ≠ steps → Precedes steps others)

include aligns precedes

theorem pairing_of_precedes {front behind start : List Step} {row column : Nat} {other : Step}
    (split : steps = front ++ .pairing row column :: behind)
    (otherAligns : Aligns height width (start ++ other :: behind))
    (total : totalCost cost gap (start ++ other :: behind) = totalCost cost gap steps) :
    other = .pairing row column := by
  by_cases same : start ++ other :: behind = steps
  · rw [split] at same
    exact (List.cons.inj (List.append_inj' same rfl).2).1
  · have before := precedes _ otherAligns total same
    rw [split] at before aligns
    have kind : (Step.pairing row column).rank = other.rank := by
      have bound := before.rank_le
      cases other with
      | insertion _ => simp [Step.rank] at bound
      | deletion _ => simp [Step.rank] at bound
      | pairing _ _ => rfl
    -- both entries lead to the cell from which the rest goes on
    obtain ⟨_, _, _, here⟩ := (aligns_iff_path.mp aligns).of_append
    obtain ⟨_, _, _, there⟩ := (aligns_iff_path.mp otherAligns).of_append
    obtain ⟨_, _, entry, rest⟩ := here.of_cons
    obtain ⟨_, _, otherEntry, otherRest⟩ := there.of_cons
    obtain ⟨rfl, rfl⟩ := rest.start_eq otherRest
    exact (entry.single_eq otherEntry kind).2.2.symm

theorem deletion_of_precedes (front : List Step) (column row : Nat) (behind : List Step) :
    steps ≠ front ++ .insertion column :: .deletion row :: behind := by
  rintro rfl
  obtain ⟨fromRow, fromColumn, start, turn⟩ := (aligns_iff_path.mp aligns).of_append
  have swapped : Path fromRow fromColumn (.deletion row :: .insertion column :: behind) height
      width := by
    cases turn with
    | insertion tail =>
        cases tail with
        | deletion rest => exact .deletion (.insertion rest)
  have before := precedes (front ++ .deletion row :: .insertion column :: behind)
    (aligns_iff_path.mpr (start.append swapped)) (by simp [stepCost]) (by simp)
  have split (first second : Step) :
      front ++ first :: second :: behind = (front ++ [first]) ++ second :: behind := by
    simp
  rw [split, split] at before
  simpa [Step.rank] using before.rank_le

end Order

/-- Costs of one unit above the tolerance: the alignment that is found costs exactly what is reported,
no alignment costs less, and of those that cost as much it is the first, read from the last entry on. -/
theorem globalAlignment_foremost (costs : Grid Rat) (gap unit : Rat) (even : costs.Rectangular)
    (coarse : Quantity.tolerance < unit) (gapMultiple : ∃ count : Int, gap = count * unit)
    (costMultiples : ∀ row ∈ costs.rows, ∀ cost ∈ row, ∃ count : Int, cost = count * unit) :
    ∃ steps, globalAlignment costs gap = .ok (steps, totalCost (costs.get 0) gap steps) ∧
      Foremost (costs.get 0) gap costs.height costs.width steps := by
  have isMultiple : ∀ {value : Rat}, (∃ count : Int, value = count * unit) →
      value ∈ AddSubgroup.zmultiples unit := by
    rintro value ⟨count, rfl⟩
    exact AddSubgroup.mem_zmultiples_iff.mpr ⟨count, zsmul_eq_mul unit count⟩
  have cells : ∀ row column, costs.get 0 row column ∈ AddSubgroup.zmultiples unit := by
    intro row column
    cases found : costs.get? row column with
    | none =>
        rw [Grid.get, found]
        exact zero_mem _
    | some cost =>
        obtain ⟨cells, isRow, isCell⟩ := Option.bind_eq_some_iff.mp found
        rw [Grid.get, found]
        exact isMultiple (costMultiples cells (List.mem_of_getElem? isRow) cost
          (List.mem_of_getElem? isCell))
  obtain ⟨steps, found, latest⟩ := globalAlignment_latest even gap
  have total := latest.total_eq (isMultiple gapMultiple) cells coarse
  have aligns : Aligns costs.height costs.width steps := aligns_iff_path.mpr latest.trail.path
  have precedes : ∀ others, Aligns costs.height costs.width others →
      totalCost (costs.get 0) gap others = totalCost (costs.get 0) gap steps → others ≠ steps →
      Precedes steps others := by
    intro others othersAlign same different
    have path := aligns_iff_path.mp othersAlign
    exact (latest.precedes others path (same.trans total)).resolve_left different
  rw [← total] at found
  refine ⟨steps, found, aligns, ?_, precedes, ?_, deletion_of_precedes aligns precedes⟩
  · intro others othersAlign
    rw [total]
    exact (cheapest_isLeast (costs.get 0) gap costs.height costs.width).2 ⟨others, othersAlign, rfl⟩
  · exact fun _ _ _ _ split _ _ => pairing_of_precedes aligns precedes split

/-- Either pair of no cost leaves a gap in both rows and columns, before it or behind it. -/
def crossingCosts : Grid Rat :=
  { width := 2, rows := [[1, 0], [0, 1]] }

theorem globalAlignment_foremost_crossing :
    crossingCosts.Rectangular ∧ (Quantity.tolerance : Rat) < 1 / 2 ∧
    globalAlignment crossingCosts (1 / 2) =
      .ok ([.deletion 0, .pairing 1 0, .insertion 1], 1) ∧
    ∃ steps, globalAlignment crossingCosts (1 / 2) =
        .ok (steps, totalCost (crossingCosts.get 0) (1 / 2) steps) ∧
      Foremost (crossingCosts.get 0) (1 / 2) 2 2 steps := by
  have even : crossingCosts.Rectangular := by simp [Grid.Rectangular, crossingCosts]
  have coarse := Quantity.rat_tolerance_lt_half
  refine ⟨even, coarse, by with_unfolding_all decide, ?_⟩
  refine globalAlignment_foremost crossingCosts (1 / 2) (1 / 2) even coarse ⟨1, by norm_num⟩ ?_
  simp only [crossingCosts, List.forall_mem_cons]
  refine ⟨⟨⟨2, by norm_num⟩, ⟨0, by norm_num⟩, by simp⟩,
    ⟨⟨0, by norm_num⟩, ⟨2, by norm_num⟩, by simp⟩, by simp⟩

end FlowAlign.Align
