import FlowAlign.Proofs.Align.Eligible

/-!
Alignments that are not refined. The penalty of a pair that is not eligible exceeds two gaps, so that a
cheapest alignment under the base costs has no such pair and costs no more than the cheapest one among
those that pair eligible blocks only. What is reported as its cost exceeds that by no more than the
tolerance for every entry.
-/

namespace FlowAlign.Align

/-- The blocks of both graphs in order, paired only where they are similar enough. -/
structure Admissible (options : Options Rat) (primary secondary : FlowGraph) (steps : List Step) :
    Prop where
  aligns : Aligns primary.size secondary.size steps
  eligible : PairsEligible options primary secondary steps

section Base

variable {options : Options Rat} {primary secondary : FlowGraph} {steps : List Step}

/-- On eligible pairs the base costs are the dissimilarities. -/
theorem Admissible.total_eq (admissible : Admissible options primary secondary steps) :
    totalCost ((costsOf options primary secondary).base.get 0) options.gapCost steps =
      totalCost (dissimilarity primary secondary) options.gapCost steps := by
  have path := aligns_iff_path.mp admissible.aligns
  rw [totalCost, totalCost]
  congr 1
  apply List.map_congr_left
  intro step member
  cases step with
  | insertion column => rfl
  | deletion row => rfl
  | pairing row column =>
      have cell := costsOf_base_get options (path.row_bound member rfl) (path.column_bound member rfl)
      rw [Quantity.rat_whole, Nat.cast_zero] at cell
      rw [stepCost, stepCost, cell, baseCost, if_pos (admissible.eligible row column member)]
      simp [dissimilarity]

theorem Trail.admissible
    (trail : Trail ((costsOf options primary secondary).base.get 0) options.gapCost primary.size
      secondary.size steps) :
    Admissible options primary secondary steps :=
  ⟨aligns_iff_path.mpr trail.path, trail.base_eligible⟩

variable (options primary secondary)

/-- The least cost of the constrained alignments is that of all alignments under the base costs. -/
theorem cheapest_admissible :
    IsLeast {total | ∃ steps, Admissible options primary secondary steps ∧
        totalCost (dissimilarity primary secondary) options.gapCost steps = total}
      (cheapest ((costsOf options primary secondary).base.get 0) options.gapCost primary.size
        secondary.size) := by
  constructor
  · obtain ⟨steps, path, total⟩ := cheapest_attained
      ((costsOf options primary secondary).base.get 0) options.gapCost
      (primary.size + secondary.size) primary.size secondary.size rfl
    have admissible := (Trail.of_cheapest path total).admissible
    exact ⟨steps, admissible, admissible.total_eq.symm.trans total⟩
  · rintro total ⟨steps, admissible, rfl⟩
    rw [← admissible.total_eq]
    exact (cheapest_isLeast _ _ _ _).2 ⟨steps, admissible.aligns, rfl⟩

end Base

theorem compute_unrefined {options : Options Rat} {primary secondary : FlowGraph}
    {matcher : Matcher Rat} (ready : Ready matcher options primary secondary)
    (full : isDegraded options primary secondary = false)
    (unrefined : options.maxIterations ≤ 0 ∨ primary.size = 1 ∧ secondary.size = 1) :
    (compute matcher).iterations = 0 ∧
      ∃ steps, pathOf options primary secondary = .ok steps ∧
        Trail ((costsOf options primary secondary).base.get 0) options.gapCost primary.size
          secondary.size steps := by
  obtain ⟨steps, found, trail⟩ := globalAlignment_base_trail options primary secondary
  have costs : matcher.costs = some (costsOf options primary secondary) := by
    simp [ready.costs_eq, full]
  simp only [compute, costs, computeFull, pathOf, ready.options_eq, ready.primary_eq,
    ready.secondary_eq, found]
  rcases unrefined with none' | ⟨single, single'⟩
  · have limit : options.maxIterations.toNat = 0 := Int.toNat_of_nonpos none'
    simp only [limit, refine]
    split
    · exact ⟨rfl, steps, rfl, trail⟩
    · exact ⟨rfl, steps, rfl, trail⟩
  · have alone : ¬(1 < primary.size ∨ 1 < secondary.size) := by omega
    simp only [alone, if_false]
    exact ⟨trivial, steps, rfl, trail⟩

/-- Without a refinement the alignment of two checked graphs costs at least what the cheapest alignment
of eligible blocks does, and exceeds it by no more than the tolerance for every entry. -/
theorem compute_cost_optimal (options : Options Rat) (primary secondary : FlowGraph)
    (primaryChecked : primary.check = .ok ()) (secondaryChecked : secondary.check = .ok ())
    (primarySmall : primary.size ≤ options.maxBlocks)
    (secondarySmall : secondary.size ≤ options.maxBlocks)
    (unrefined : options.maxIterations ≤ 0 ∨ primary.size = 1 ∧ secondary.size = 1) :
    ∃ matcher alignment least, (process options primary secondary).outcome = .ok matcher ∧
      (compute matcher).result = .ok alignment ∧
      (align options primary secondary).outcome = .ok alignment ∧
      (compute matcher).iterations = 0 ∧
      IsLeast {total | ∃ steps, Admissible options primary secondary steps ∧
        totalCost (dissimilarity primary secondary) options.gapCost steps = total} least ∧
      least ≤ alignment.cost ∧
      alignment.cost ≤ least + Quantity.tolerance * alignment.entries.length := by
  have primaryFormed := FlowGraph.check_wellFormed primaryChecked
  have secondaryFormed := FlowGraph.check_wellFormed secondaryChecked
  have full : isDegraded options primary secondary = false := by
    simp only [isDegraded, decide_eq_false_iff_not]
    omega
  obtain ⟨matcher, processed, ready⟩ := process_ready options secondary primaryFormed.nonempty
  obtain ⟨iterations, steps, found, trail⟩ := compute_unrefined ready full unrefined
  have aligned := align_outcome options primaryFormed secondaryFormed full
  rw [found] at aligned
  have admissible := trail.admissible
  have least := cheapest_admissible options primary secondary
  have cost := alignmentOf_cost options primary secondary steps
  refine ⟨matcher, alignmentOf options primary secondary steps, _, processed,
    (align_of_process options processed).symm.trans aligned, aligned, iterations, least, ?_, ?_⟩
  · rw [cost]
    exact least.2 ⟨steps, admissible, rfl⟩
  · have bound := trail.total_le
    rw [cost, ← admissible.total_eq, alignmentOf, List.length_map]
    exact bound

theorem compute_cost_optimal_return :
    let options : Options Rat := { Options.standard with maxIterations := 0 }
    loopGraph.check = .ok () ∧ returnGraph.check = .ok () ∧
    ∃ matcher alignment least, (process options loopGraph returnGraph).outcome = .ok matcher ∧
      (compute matcher).result = .ok alignment ∧
      (align options loopGraph returnGraph).outcome = .ok alignment ∧
      (compute matcher).iterations = 0 ∧
      IsLeast {total | ∃ steps, Admissible options loopGraph returnGraph steps ∧
        totalCost (dissimilarity loopGraph returnGraph) options.gapCost steps = total} least ∧
      least ≤ alignment.cost ∧
      alignment.cost ≤ least + Quantity.tolerance * alignment.entries.length := by
  have loopChecked : loopGraph.check = .ok () := by rfl
  have returnChecked : returnGraph.check = .ok () := by rfl
  exact ⟨loopChecked, returnChecked, compute_cost_optimal _ loopGraph returnGraph loopChecked
    returnChecked (by decide) (by decide) (Or.inl le_rfl)⟩

end FlowAlign.Align
