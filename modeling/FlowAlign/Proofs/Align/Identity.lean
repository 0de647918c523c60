import FlowAlign.Proofs.Align.Agreement
import FlowAlign.Proofs.Align.Congruence
import FlowAlign.Proofs.Align.Diagonal
import FlowAlign.Proofs.Measure

/-!
A graph aligned with one of the same shape, over exact rationals. Neither the dissimilarity nor the
refinement can make a pair cheaper than those of equal positions, so that blocks are paired position by
position, all of them matched, and the first refinement changes nothing.
-/

namespace FlowAlign.Align

section Partners

/-- After the pairs of the first positions, these positions have themselves as counterparts. -/
theorem foldl_record_diagonal (size : Nat) : ∀ count : Nat,
    (diagonalSteps count).foldl record (List.replicate size none) =
      (List.range size).map fun position => if position < count then some position else none := by
  intro count
  induction count with
  | zero => simp [diagonalSteps, List.map_const']
  | succ count ih =>
      have last : diagonalSteps (count + 1) = diagonalSteps count ++ [.pairing count count] := by
        simp [diagonalSteps, List.range_succ]
      rw [last, List.foldl_append, ih, List.foldl_cons, List.foldl_nil, record]
      apply List.ext_getElem
      · simp
      · intro position _ _
        simp only [List.getElem_set, List.getElem_map, List.getElem_range]
        by_cases here : count = position
        · simp [here]
        · have below : position < count + 1 ↔ position < count := by omega
          simp [here, below]

theorem counterparts_diagonal {size : Nat} {near : Neighbours} (inside : near.areBelow size = true) :
    near.counterparts (partnersOf size (diagonalSteps size)) = near := by
  have found : ∀ position, position < size →
      (partnersOf size (diagonalSteps size)).getD position none = some position := by
    intro position below
    simp [partnersOf, foldl_record_diagonal, List.getD_eq_getElem?_getD, below]
  simp only [Neighbours.areBelow, List.all_eq_true, decide_eq_true_eq, List.mem_append] at inside
  have next : near.next.filterMap
      (fun position => (partnersOf size (diagonalSteps size)).getD position none) = near.next := by
    rw [List.filterMap_congr fun position member => found position (inside position (Or.inl member)),
      List.filterMap_some]
  have previous : near.previous.filterMap
      (fun position => (partnersOf size (diagonalSteps size)).getD position none) =
        near.previous := by
    rw [List.filterMap_congr fun position member => found position (inside position (Or.inr member)),
      List.filterMap_some]
  rw [Neighbours.counterparts, next, previous]

end Partners

section Diagonals

variable {options : Options Rat} (gap_nonneg : 0 ≤ options.gapCost)

include gap_nonneg

theorem ineligibleCost_nonneg : 0 ≤ options.ineligibleCost := by
  simp only [Options.ineligibleCost, Quantity.rat_whole, Quantity.rat_mul, Quantity.rat_add]
  push_cast
  linarith

theorem baseCost_nonneg {similarity : Rat} (atMost : similarity ≤ 1) :
    0 ≤ baseCost options similarity := by
  simp only [baseCost, Quantity.rat_whole, Quantity.rat_sub]
  split
  · push_cast
    linarith
  · exact ineligibleCost_nonneg gap_nonneg

theorem isEligible_one (reachable : options.modifyThreshold ≤ 1) : options.isEligible 1 = true := by
  have tolerance := Quantity.rat_tolerance_pos
  simp only [Options.isEligible, Quantity.rat_le, Quantity.rat_whole, Quantity.rat_sub,
    Quantity.rat_mul, Quantity.rat_add, Bool.and_eq_true, decide_eq_true_eq]
  push_cast
  constructor
  · linarith
  · linarith

theorem baseCost_one (reachable : options.modifyThreshold ≤ 1) : baseCost options 1 = 0 := by
  simp [baseCost, isEligible_one gap_nonneg reachable]

variable {primary secondary : FlowGraph} (reachable : options.modifyThreshold ≤ 1)
  (same : primary.shape = secondary.shape)

include reachable same

theorem base_diagonal :
    Diagonal (costsOf options primary secondary).base primary.size 0 where
  even := costsOf_base_rectangular options primary secondary
  height_eq := costsOf_base_height options primary secondary
  width_eq := (FlowGraph.size_eq_of_shape same).symm
  bounded := by
    intro row column rowInside columnInside
    rw [FlowGraph.size_eq_of_shape same] at columnInside
    rw [costsOf_base_get options rowInside columnInside, neg_zero]
    exact baseCost_nonneg gap_nonneg (Measure.likeness_le_one _ _)
  diagonal := by
    intro position inside
    have inside' := inside
    rw [FlowGraph.size_eq_of_shape same] at inside'
    rw [costsOf_base_get options inside inside',
      Measure.likeness_eq_one.mpr (keys_eq_of_shape (blockAt_shape same position)), neg_zero]
    exact baseCost_one gap_nonneg reachable

variable (weight_nonneg : 0 ≤ options.topologyWeight) (penalty_nonneg : 0 ≤ options.edgePenalty)

include weight_nonneg penalty_nonneg

omit reachable same in
theorem refinedCost_ge {agreement : Rat} {cost : PairCost Rat} (agrees : agreement ≤ 1)
    (base : 0 ≤ cost.base) (kinds : 0 ≤ cost.kindDistance) :
    -options.topologyWeight ≤ refinedCost options agreement cost := by
  have reward : options.topologyWeight * agreement ≤ options.topologyWeight * 1 :=
    mul_le_mul_of_nonneg_left agrees weight_nonneg
  have penalty : 0 ≤ options.edgePenalty * cost.kindDistance := mul_nonneg penalty_nonneg kinds
  have ineligible := ineligibleCost_nonneg gap_nonneg
  simp only [refinedCost, Quantity.rat_sub, Quantity.rat_add, Quantity.rat_mul]
  split
  · linarith
  · linarith

theorem refined_diagonal (formed : primary.WellFormed) (secondaryFormed : secondary.WellFormed) :
    Diagonal (refinedOf options primary secondary
      (partnersOf primary.size (diagonalSteps primary.size))) primary.size
      options.topologyWeight where
  even := refinedOf_rectangular options primary secondary _
  height_eq := refinedOf_height options primary secondary _
  width_eq := (FlowGraph.size_eq_of_shape same).symm
  bounded := by
    intro row column rowInside columnInside
    rw [FlowGraph.size_eq_of_shape same] at columnInside
    rw [refinedOf_get options rowInside columnInside]
    apply refinedCost_ge gap_nonneg weight_nonneg penalty_nonneg
    · exact agreement_le_one _ _ (around_distinct secondaryFormed column)
    · exact baseCost_nonneg gap_nonneg (Measure.likeness_le_one _ _)
    · rw [pairCost, jaccard_eq]
      exact setDistance_nonneg _ _
  diagonal := by
    intro position inside
    have inside' := inside
    rw [FlowGraph.size_eq_of_shape same] at inside'
    have shapes := blockAt_shape same position
    have near : around secondary position = around primary position := by
      rw [around, around, FlowGraph.successors_eq_of_shape same,
        FlowGraph.predecessors_eq_of_shape same]
    rw [refinedOf_get options inside inside', counterparts_diagonal (around_areBelow formed position),
      near, agreement_self (around_distinct formed position),
      Measure.likeness_eq_one.mpr (keys_eq_of_shape shapes)]
    simp only [refinedCost, pairCost, isEligible_one gap_nonneg reachable, if_true,
      baseCost_one gap_nonneg reachable, edgeKinds_eq_of_shape shapes, jaccard_eq,
      setDistance_self,
      Quantity.rat_sub, Quantity.rat_add, Quantity.rat_mul]
    linarith

end Diagonals

section Run

variable {options : Options Rat} {primary secondary : FlowGraph}
  (same : primary.shape = secondary.shape) (primaryFormed : primary.WellFormed)
  (secondaryFormed : secondary.WellFormed) (reachable : options.modifyThreshold ≤ 1)
  (dear : Quantity.tolerance < options.gapCost)

include same reachable dear

theorem globalAlignment_base :
    globalAlignment (costsOf options primary secondary).base options.gapCost =
      .ok (diagonalSteps primary.size, -(primary.size * 0)) := by
  have gap_nonneg := (lt_trans Quantity.rat_tolerance_pos dear).le
  exact globalAlignment_diagonal (base_diagonal gap_nonneg reachable same) dear le_rfl

variable (weight_nonneg : 0 ≤ options.topologyWeight) (penalty_nonneg : 0 ≤ options.edgePenalty)

include primaryFormed secondaryFormed weight_nonneg penalty_nonneg

/-- A refinement of the diagonal gives the diagonal again. -/
theorem refineOnce_identity :
    refineOnce options (costsOf options primary secondary) primary secondary
      (diagonalSteps primary.size) =
      .ok (diagonalSteps primary.size, -(primary.size * options.topologyWeight)) := by
  have gap_nonneg := (lt_trans Quantity.rat_tolerance_pos dear).le
  have sizes := FlowGraph.size_eq_of_shape same
  have path : Path 0 0 (diagonalSteps primary.size) primary.size secondary.size := by
    have square := base_diagonal gap_nonneg reachable same
    have inside := globalAlignment_path (globalAlignment_base same reachable dear)
    rw [square.height_eq, square.width_eq] at inside
    rwa [← sizes]
  rw [refineOnce_eq options primaryFormed secondaryFormed path, globalAlignment_diagonal
    (refined_diagonal gap_nonneg reachable same weight_nonneg penalty_nonneg primaryFormed
      secondaryFormed) dear
    weight_nonneg]
  rfl

theorem refine_identity (limit : Nat) :
    let refinement := refine (refineOnce options (costsOf options primary secondary) primary
      secondary) limit 0 (diagonalSteps primary.size) none
    refinement.result = .ok (diagonalSteps primary.size) ∧
      (1 ≤ limit → refinement.iterations = 1) := by
  cases limit with
  | zero => exact ⟨rfl, by omega⟩
  | succ limit =>
      simp [refine, isStable, refineOnce_identity same primaryFormed secondaryFormed reachable dear
        weight_nonneg penalty_nonneg]

theorem pathOf_identity :
    pathOf options primary secondary = .ok (diagonalSteps primary.size) := by
  have refined := (refine_identity same primaryFormed secondaryFormed reachable dear weight_nonneg
    penalty_nonneg options.maxIterations.toNat).1
  simp only [pathOf, globalAlignment_base same reachable dear]
  split
  · exact refined
  · rfl

end Run

def selfEntry (position : Nat) : Entry Rat :=
  { primary := some position, secondary := some position, status := .matched, similarity := 1 }

theorem entryOf_identity {options : Options Rat} {primary secondary : FlowGraph}
    (same : primary.shape = secondary.shape) (attainable : options.matchThreshold ≤ 1)
    (position : Nat) :
    entryOf options primary secondary (.pairing position position) = selfEntry position := by
  have shapes := blockAt_shape same position
  have tolerance := Quantity.rat_tolerance_pos
  have isMatch : options.isMatch 1 = true := by
    simp only [Options.isMatch, Quantity.rat_le, Quantity.rat_sub, decide_eq_true_eq]
    linarith
  simp [entryOf, selfEntry, pairStatus, Measure.likeness_eq_one.mpr (keys_eq_of_shape shapes),
    keys_eq_of_shape shapes, edgeKinds_eq_of_shape shapes, isMatch]

theorem cost_of_selfEntries {alignment : Alignment Rat} {size : Nat}
    (entries : alignment.entries = (List.range size).map selfEntry) : alignment.cost = 0 := by
  simp only [Alignment.cost, entries, List.foldl_map]
  apply List.foldl_fixed'
  intro position
  simp [selfEntry, Alignment.entryCost, Entry.isGap]

/-- Two graphs of the same shape are aligned block by block, all of them matched, at no cost; and if
there is anything to refine, the first refinement is the last. -/
theorem align_identity (options : Options Rat) (primary secondary : FlowGraph)
    (primaryChecked : primary.check = .ok ()) (secondaryChecked : secondary.check = .ok ())
    (same : primary.shape = secondary.shape) (small : primary.size ≤ options.maxBlocks)
    (attainable : options.matchThreshold ≤ 1) (reachable : options.modifyThreshold ≤ 1)
    (dear : Quantity.tolerance < options.gapCost) (weight_nonneg : 0 ≤ options.topologyWeight)
    (penalty_nonneg : 0 ≤ options.edgePenalty) :
    ∃ matcher alignment, (process options primary secondary).outcome = .ok matcher ∧
      (compute matcher).result = .ok alignment ∧
      (align options primary secondary).outcome = .ok alignment ∧
      alignment.entries = (List.range primary.size).map (fun position =>
        { primary := some position, secondary := some position, status := .matched
          similarity := 1 }) ∧
      alignment.isIdentical = true ∧ alignment.cost = 0 ∧
      (1 < primary.size → 1 ≤ options.maxIterations → (compute matcher).iterations = 1) := by
  have primaryFormed := FlowGraph.check_wellFormed primaryChecked
  have secondaryFormed := FlowGraph.check_wellFormed secondaryChecked
  have full : isDegraded options primary secondary = false := by
    simpa [isDegraded, ← FlowGraph.size_eq_of_shape same] using small
  have path := pathOf_identity same primaryFormed secondaryFormed reachable dear weight_nonneg
    penalty_nonneg
  obtain ⟨matcher, processed, ready⟩ := process_ready options secondary primaryFormed.nonempty
  have costs : matcher.costs = some (costsOf options primary secondary) := by
    simp [ready.costs_eq, full]
  have entries : (alignmentOf options primary secondary (diagonalSteps primary.size)).entries =
      (List.range primary.size).map selfEntry := by
    simp only [alignmentOf, diagonalSteps, List.map_map, Function.comp_def,
      entryOf_identity same attainable]
  refine ⟨matcher, alignmentOf options primary secondary (diagonalSteps primary.size), processed,
    ?_, ?_, entries, ?_, cost_of_selfEntries entries, ?_⟩
  · rw [compute, costs]
    dsimp only
    rw [computeFull_result options primaryFormed secondaryFormed ready, path]
    rfl
  · rw [align_outcome options primaryFormed secondaryFormed full, path]
    rfl
  · simp [Alignment.isIdentical, entries, selfEntry]
  · intro several limit
    have refined := (refine_identity same primaryFormed secondaryFormed reachable dear weight_nonneg
      penalty_nonneg options.maxIterations.toNat).2
    simp only [compute, costs, computeFull, ready.options_eq, ready.primary_eq, ready.secondary_eq,
      globalAlignment_base same reachable dear, several, true_or, if_true]
    exact refined (by omega)

/-- The same two blocks under another name and other labels. -/
def renamedLoop : FlowGraph :=
  { loopGraph with
    name := "again"
    display := { labels := ["first", "second"], texts := [], addresses := [] } }

theorem align_identity_loop :
    loopGraph.shape = renamedLoop.shape ∧
    ∃ matcher alignment,
      (process (Options.standard : Options Rat) loopGraph renamedLoop).outcome = .ok matcher ∧
      (compute matcher).result = .ok alignment ∧
      (align (Options.standard : Options Rat) loopGraph renamedLoop).outcome = .ok alignment ∧
      alignment.entries = (List.range 2).map (fun position =>
        { primary := some position, secondary := some position, status := .matched
          similarity := 1 }) ∧
      alignment.isIdentical = true ∧ alignment.cost = 0 ∧
      (1 < 2 → 1 ≤ (8 : Int) → (compute matcher).iterations = 1) := by
  have half : (Options.standard : Options Rat).gapCost = 1 / 2 := by
    simp [Options.standard]
  have quarter : (Options.standard : Options Rat).topologyWeight = 1 / 4 := by
    simp [Options.standard]
  refine ⟨rfl, align_identity Options.standard loopGraph renamedLoop rfl rfl rfl (by decide) ?_ ?_ ?_
    ?_ ?_⟩
  · simp [Options.standard]
  · norm_num [Options.standard]
  · rw [half]
    exact Quantity.rat_tolerance_lt_half
  · rw [quarter]
    norm_num
  · simp [Options.standard]

end FlowAlign.Align
