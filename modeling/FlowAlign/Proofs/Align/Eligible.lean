import FlowAlign.Proofs.Align.Cover
import FlowAlign.Proofs.Align.Optimal

/-!
Which pairs an alignment puts together. Over exact rationals a pair that costs more than two gaps is
never on a trail through the table, so neither the base costs nor any refined ones bring in a pair that
is not eligible, and alignment by name asks for it outright. Hence an alignment costs no more than
deleting and inserting everything, but for the tolerance of its pairs.
-/

namespace FlowAlign

namespace Options

variable {options : Options Rat} {similarity : Rat}

theorem isEligible_iff : options.isEligible similarity = true ↔
    options.modifyThreshold - Quantity.tolerance ≤ similarity ∧
      1 - similarity ≤ 2 * options.gapCost + Quantity.tolerance := by
  simp [isEligible]

theorem ineligibleCost_eq (options : Options Rat) :
    options.ineligibleCost = 2 * options.gapCost + 1 := by
  simp [ineligibleCost]

end Options

namespace Align

theorem isEligible_of_baseCost_le {options : Options Rat} {similarity : Rat}
    (cheap : baseCost options similarity ≤ 2 * options.gapCost + Quantity.tolerance) :
    options.isEligible similarity = true := by
  by_contra ineligible
  have small := Quantity.rat_tolerance_lt_one
  rw [baseCost, if_neg ineligible, options.ineligibleCost_eq] at cheap
  linarith

theorem eligible_of_refinedCost_le {options : Options Rat} {agreement : Rat} {cost : PairCost Rat}
    (cheap : refinedCost options agreement cost ≤ 2 * options.gapCost + Quantity.tolerance) :
    cost.eligible = true := by
  by_contra ineligible
  have small := Quantity.rat_tolerance_lt_one
  rw [refinedCost, if_neg ineligible, options.ineligibleCost_eq] at cheap
  linarith

section Pairs

variable {α : Type} [Quantity α] {options : Options α} {primary secondary : FlowGraph}

/-- The blocks that steps put together are similar enough for it. -/
def PairsEligible (options : Options α) (primary secondary : FlowGraph) (steps : List Step) : Prop :=
  ∀ row column, Step.pairing row column ∈ steps → options.isEligible
    (Measure.likeness (primary.blockAt row).tokens (secondary.blockAt column).tokens) = true

theorem pairing_mem_fillGaps {height width first second : Nat} :
    ∀ (pairs : List (Nat × Nat)) (row column : Nat),
      Step.pairing first second ∈ fillGaps height width row column pairs →
      (first, second) ∈ pairs := by
  intro pairs
  induction pairs with
  | nil =>
      intro row column member
      simp [fillGaps, gapsBetween] at member
  | cons next rest ih =>
      intro row column member
      obtain ⟨nextRow, nextColumn⟩ := next
      simp only [fillGaps, gapsBetween, List.mem_append, List.mem_map, List.mem_cons, reduceCtorEq,
        and_false, exists_false, false_or, Step.pairing.injEq] at member
      rcases member with ⟨rfl, rfl⟩ | later
      · exact List.mem_cons_self
      · exact List.mem_cons_of_mem _ (ih _ _ later)

theorem nameAlignment_eligible (primaryFormed : primary.WellFormed)
    (secondaryFormed : secondary.WellFormed) {measure after : Measure α} {steps : List Step}
    (sound : measure.Sound)
    (named : nameAlignment options measure primary secondary = .ok (after, steps)) :
    PairsEligible options primary secondary steps := by
  intro row column member
  obtain ⟨last, _, found⟩ := nameAlignment_eq options primaryFormed secondaryFormed sound
  rw [named, Except.ok.injEq, Prod.mk.injEq] at found
  rw [found.2] at member
  exact (List.mem_filter.mp (chosenOf_subset (pairing_mem_fillGaps _ 0 0 member))).2

end Pairs

section Run

/-- What every refinement keeps, any number of refinements keeps, and none of them fails. -/
theorem refine_ok {step : List Step → Except Fault (List Step × Rat)} {good : List Step → Prop}
    (keeps : ∀ alignment, good alignment →
      ∃ refined cost, step alignment = .ok (refined, cost) ∧ good refined)
    (fuel : Nat) {alignment : List Step} (isGood : good alignment) :
    ∃ refined, (refine step fuel 0 alignment none).result = .ok refined ∧ good refined := by
  have kept : ∀ before after cost, good before → step before = .ok (after, cost) → good after := by
    intro before after cost beforeGood succeeded
    obtain ⟨refined, total, again, refinedGood⟩ := keeps before beforeGood
    rw [succeeded] at again
    cases again
    exact refinedGood
  have never : ∀ before fault, good before → step before = .error fault → False := by
    intro before fault beforeGood failed
    obtain ⟨refined, total, again, _⟩ := keeps before beforeGood
    rw [failed] at again
    cases again
  rcases refine_result kept never fuel 0 alignment none isGood with found | ⟨_, _, impossible⟩
  · exact found
  · exact impossible.elim

variable (options : Options Rat) {primary secondary : FlowGraph}

/-- A trail through the table of the base costs pairs no blocks that are not eligible. -/
theorem Trail.base_eligible {steps : List Step}
    (trail : Trail ((costsOf options primary secondary).base.get 0) options.gapCost primary.size
      secondary.size steps) :
    PairsEligible options primary secondary steps := by
  intro row column member
  have rowInside := trail.path.row_bound member rfl
  have columnInside := trail.path.column_bound member rfl
  have cheap := trail.pairing_le member
  have cell := costsOf_base_get options rowInside columnInside
  rw [Quantity.rat_whole, Nat.cast_zero] at cell
  rw [cell] at cheap
  exact isEligible_of_baseCost_le cheap

variable (primary secondary) in
theorem globalAlignment_base_trail :
    ∃ steps, globalAlignment (costsOf options primary secondary).base options.gapCost =
        .ok (steps, cheapest ((costsOf options primary secondary).base.get 0) options.gapCost
          primary.size secondary.size) ∧
      Trail ((costsOf options primary secondary).base.get 0) options.gapCost primary.size
        secondary.size steps := by
  obtain ⟨steps, found, trail⟩ := globalAlignment_trail
    (costsOf_base_rectangular options primary secondary) options.gapCost
  rw [costsOf_base_height] at found trail
  exact ⟨steps, found, trail⟩

variable (primaryFormed : primary.WellFormed) (secondaryFormed : secondary.WellFormed)

include primaryFormed secondaryFormed

/-- Rewards for the neighbours make no pair eligible that was not. -/
theorem refineOnce_eligible {steps : List Step}
    (path : Path 0 0 steps primary.size secondary.size) :
    ∃ refined cost, refineOnce options (costsOf options primary secondary) primary secondary steps =
        .ok (refined, cost) ∧
      Path 0 0 refined primary.size secondary.size ∧
      PairsEligible options primary secondary refined := by
  obtain ⟨refined, found, trail⟩ := globalAlignment_trail (refinedOf_rectangular options primary
    secondary (partnersOf primary.size steps)) options.gapCost
  have refinedPath := trail.path
  rw [refinedOf_height] at refinedPath
  have again := refineOnce_eq options primaryFormed secondaryFormed path
  rw [found] at again
  refine ⟨refined, _, again, refinedPath, ?_⟩
  intro row column member
  have rowInside := refinedPath.row_bound member rfl
  have columnInside := refinedPath.column_bound member rfl
  have cheap := trail.pairing_le member
  have cell : (refinedOf options primary secondary (partnersOf primary.size steps)).get
      (Quantity.whole 0) row column = _ := refinedOf_get options rowInside columnInside
  rw [Quantity.rat_whole, Nat.cast_zero] at cell
  rw [cell] at cheap
  exact eligible_of_refinedCost_le cheap

theorem pathOf_eligible :
    ∃ steps, pathOf options primary secondary = .ok steps ∧
      Path 0 0 steps primary.size secondary.size ∧ PairsEligible options primary secondary steps := by
  obtain ⟨steps, found, trail⟩ := globalAlignment_base_trail options primary secondary
  have keeps : ∀ steps, Path 0 0 steps primary.size secondary.size ∧
      PairsEligible options primary secondary steps →
      ∃ refined cost, refineOnce options (costsOf options primary secondary) primary secondary
          steps = .ok (refined, cost) ∧ Path 0 0 refined primary.size secondary.size ∧
        PairsEligible options primary secondary refined :=
    fun _ good => refineOnce_eligible options primaryFormed secondaryFormed good.1
  simp only [pathOf, found]
  split
  · exact refine_ok keeps options.maxIterations.toNat ⟨trail.path, trail.base_eligible⟩
  · exact ⟨steps, rfl, trail.path, trail.base_eligible⟩

/-- Whether blocks are aligned by cost or by name, the result is a path of eligible pairs. -/
theorem compute_eligible {matcher : Matcher Rat} (ready : Ready matcher options primary secondary) :
    ∃ steps, Path 0 0 steps primary.size secondary.size ∧
      PairsEligible options primary secondary steps ∧
      (compute matcher).result = .ok (alignmentOf options primary secondary steps) := by
  simp only [compute, ready.costs_eq]
  by_cases degraded : isDegraded options primary secondary
  · obtain ⟨after, steps, named, path, result⟩ :=
      computeByName_path options primaryFormed secondaryFormed ready
    simp only [degraded, if_true]
    have eligible := nameAlignment_eligible primaryFormed secondaryFormed ready.sound named
    exact ⟨steps, path, eligible, result⟩
  · obtain ⟨steps, found, path, eligible⟩ :=
      pathOf_eligible options primaryFormed secondaryFormed
    simp only [degraded, Bool.false_eq_true, if_false]
    refine ⟨steps, path, eligible, ?_⟩
    rw [computeFull_result options primaryFormed secondaryFormed ready, found]
    rfl

end Run

/-- Aligning two checked graphs over exact rationals succeeds, and whatever the options are, all blocks
it pairs are similar enough to be paired. -/
theorem compute_pairs_eligible (options : Options Rat) (primary secondary : FlowGraph)
    (primaryChecked : primary.check = .ok ()) (secondaryChecked : secondary.check = .ok ()) :
    ∃ matcher alignment, (process options primary secondary).outcome = .ok matcher ∧
      (compute matcher).result = .ok alignment ∧
      (align options primary secondary).outcome = .ok alignment ∧
      ∀ entry ∈ alignment.entries, ∀ row column : Int,
        entry.primary = some row → entry.secondary = some column →
        ∃ first second, primary.blocks[row.toNat]? = some first ∧ first.id = row ∧
          secondary.blocks[column.toNat]? = some second ∧ second.id = column ∧
          entry.similarity = (Measure.empty.similarity first.tokens second.tokens).2 ∧
          options.modifyThreshold - Quantity.tolerance ≤ entry.similarity ∧
          1 - entry.similarity ≤ 2 * options.gapCost + Quantity.tolerance := by
  have primaryFormed := FlowGraph.check_wellFormed primaryChecked
  have secondaryFormed := FlowGraph.check_wellFormed secondaryChecked
  obtain ⟨matcher, processed, ready⟩ := process_ready options secondary primaryFormed.nonempty
  obtain ⟨steps, path, eligible, result⟩ :=
    compute_eligible options primaryFormed secondaryFormed ready
  refine ⟨matcher, _, processed, result, (align_of_process options processed).trans result, ?_⟩
  intro entry member row column isRow isColumn
  obtain ⟨step, isStep, rfl⟩ := List.mem_map.mp member
  cases step with
  | insertion position => simp [entryOf] at isRow
  | deletion position => simp [entryOf] at isColumn
  | pairing position counterpart =>
      obtain rfl : (position : Int) = row := by simpa [entryOf] using isRow
      obtain rfl : (counterpart : Int) = column := by simpa [entryOf] using isColumn
      have rowInside := path.row_bound isStep rfl
      have columnInside := path.column_bound isStep rfl
      have first := FlowGraph.getElem?_blockAt rowInside
      have second := FlowGraph.getElem?_blockAt columnInside
      obtain ⟨similar, close⟩ := Options.isEligible_iff.mp (eligible position counterpart isStep)
      refine ⟨primary.blockAt position, secondary.blockAt counterpart, first,
        (primaryFormed.placed _ _ first).1, second, (secondaryFormed.placed _ _ second).1, ?_,
        similar, close⟩
      exact (Measure.similarity_spec Measure.sound_empty _ _).1.symm

theorem compute_pairs_eligible_return :
    loopGraph.check = .ok () ∧ returnGraph.check = .ok () ∧
    ∃ matcher alignment,
      (process (Options.standard : Options Rat) loopGraph returnGraph).outcome = .ok matcher ∧
      (compute matcher).result = .ok alignment ∧
      (align (Options.standard : Options Rat) loopGraph returnGraph).outcome = .ok alignment ∧
      ∀ entry ∈ alignment.entries, ∀ row column : Int,
        entry.primary = some row → entry.secondary = some column →
        ∃ first second, loopGraph.blocks[row.toNat]? = some first ∧ first.id = row ∧
          returnGraph.blocks[column.toNat]? = some second ∧ second.id = column ∧
          entry.similarity = (Measure.empty.similarity first.tokens second.tokens).2 ∧
          (Options.standard : Options Rat).modifyThreshold - Quantity.tolerance ≤
            entry.similarity ∧
          1 - entry.similarity ≤ 2 * (Options.standard : Options Rat).gapCost +
            Quantity.tolerance := by
  have loopChecked : loopGraph.check = .ok () := by rfl
  have returnChecked : returnGraph.check = .ok () := by rfl
  exact ⟨loopChecked, returnChecked,
    compute_pairs_eligible Options.standard loopGraph returnGraph loopChecked returnChecked⟩

section Naive

/-- Along a path a pair stands for two gaps, so pairs that cost at most as much leave the total cost at
that of the gaps alone. -/
theorem totalCost_le_gaps (cost : Nat → Nat → Rat) (gap : Rat)
    {row column lastRow lastColumn : Nat} {steps : List Step}
    (path : Path row column steps lastRow lastColumn)
    (cheap : ∀ first second, Step.pairing first second ∈ steps →
      cost first second ≤ 2 * gap + Quantity.tolerance) :
    totalCost cost gap steps + gap * (row + column) ≤ gap * (lastRow + lastColumn) +
      Quantity.tolerance * steps.countP (fun step => step.row?.isSome && step.column?.isSome) := by
  induction path with
  | done => simp
  | insertion _ ih =>
      have tail := ih fun first second member => cheap first second (List.mem_cons_of_mem _ member)
      rw [totalCost_cons, stepCost, List.countP_cons_of_neg (by simp [Step.row?])]
      push_cast at tail
      linarith
  | deletion _ ih =>
      have tail := ih fun first second member => cheap first second (List.mem_cons_of_mem _ member)
      rw [totalCost_cons, stepCost, List.countP_cons_of_neg (by simp [Step.row?, Step.column?])]
      push_cast at tail
      linarith
  | @pairing row column _ _ _ _ ih =>
      have tail := ih fun first second member => cheap first second (List.mem_cons_of_mem _ member)
      have here := cheap row column List.mem_cons_self
      rw [totalCost_cons, stepCost, List.countP_cons_of_pos (by simp [Step.row?, Step.column?])]
      push_cast at tail ⊢
      linarith

variable (options : Options Rat) (primary secondary : FlowGraph)

def dissimilarity (row column : Nat) : Rat :=
  1 - Measure.likeness (primary.blockAt row).tokens (secondary.blockAt column).tokens

theorem entryCost_entryOf (step : Step) :
    Alignment.entryCost options.gapCost (entryOf options primary secondary step) =
      stepCost (dissimilarity primary secondary) options.gapCost step := by
  cases step <;> simp [Alignment.entryCost, entryOf, Entry.isGap, stepCost, dissimilarity]

theorem alignmentOf_cost (steps : List Step) :
    (alignmentOf options primary secondary steps).cost =
      totalCost (dissimilarity primary secondary) options.gapCost steps := by
  have sums : ∀ (rest : List Step) (start : Rat),
      (rest.map (entryOf options primary secondary)).foldl
        (fun total entry => total + Alignment.entryCost options.gapCost entry) start =
      start + totalCost (dissimilarity primary secondary) options.gapCost rest := by
    intro rest
    induction rest with
    | nil => simp
    | cons step rest ih =>
        intro start
        rw [List.map_cons, List.foldl_cons, ih, entryCost_entryOf, totalCost_cons, add_assoc]
  have total := sums steps 0
  rw [zero_add] at total
  simpa [Alignment.cost, alignmentOf] using total

end Naive

/-- Aligning two checked graphs over exact rationals gives an alignment that costs no more than deleting
all blocks of the one and inserting all blocks of the other, but for the tolerance of its pairs. -/
theorem compute_cost_le_naive (options : Options Rat) (primary secondary : FlowGraph)
    (primaryChecked : primary.check = .ok ()) (secondaryChecked : secondary.check = .ok ()) :
    ∃ matcher alignment, (process options primary secondary).outcome = .ok matcher ∧
      (compute matcher).result = .ok alignment ∧
      (align options primary secondary).outcome = .ok alignment ∧
      alignment.naiveCost = options.gapCost * (primary.size + secondary.size) ∧
      alignment.cost ≤ alignment.naiveCost +
        Quantity.tolerance * alignment.entries.countP fun entry => !entry.isGap := by
  have primaryFormed := FlowGraph.check_wellFormed primaryChecked
  have secondaryFormed := FlowGraph.check_wellFormed secondaryChecked
  obtain ⟨matcher, processed, ready⟩ := process_ready options secondary primaryFormed.nonempty
  obtain ⟨steps, path, eligible, result⟩ :=
    compute_eligible options primaryFormed secondaryFormed ready
  have naive : (alignmentOf options primary secondary steps).naiveCost =
      options.gapCost * (primary.size + secondary.size) := by
    simp [Alignment.naiveCost, alignmentOf]
  refine ⟨matcher, _, processed, result, (align_of_process options processed).trans result, naive, ?_⟩
  have bound := totalCost_le_gaps (dissimilarity primary secondary) options.gapCost path
    fun row column member => (Options.isEligible_iff.mp (eligible row column member)).2
  have pairs : (alignmentOf options primary secondary steps).entries.countP
      (fun entry => !entry.isGap) =
      steps.countP fun step => step.row?.isSome && step.column?.isSome := by
    rw [alignmentOf, List.countP_map]
    apply List.countP_congr
    intro step _
    cases step <;> simp [entryOf, Entry.isGap, Step.row?, Step.column?]
  rw [naive, alignmentOf_cost, pairs]
  simpa using bound

theorem compute_cost_le_naive_degraded :
    let options : Options Rat := { Options.standard with maxBlocks := 1 }
    loopGraph.check = .ok () ∧ returnGraph.check = .ok () ∧
    isDegraded options loopGraph returnGraph = true ∧
    ∃ matcher alignment, (process options loopGraph returnGraph).outcome = .ok matcher ∧
      (compute matcher).result = .ok alignment ∧
      (align options loopGraph returnGraph).outcome = .ok alignment ∧
      alignment.naiveCost = options.gapCost * (loopGraph.size + returnGraph.size) ∧
      alignment.cost ≤ alignment.naiveCost +
        Quantity.tolerance * alignment.entries.countP fun entry => !entry.isGap := by
  have loopChecked : loopGraph.check = .ok () := by rfl
  have returnChecked : returnGraph.check = .ok () := by rfl
  exact ⟨loopChecked, returnChecked, by decide,
    compute_cost_le_naive _ loopGraph returnGraph loopChecked returnChecked⟩

end Align

end FlowAlign
