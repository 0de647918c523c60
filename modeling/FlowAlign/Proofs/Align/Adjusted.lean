import FlowAlign.Proofs.Align.Agreement
import FlowAlign.Proofs.Align.Eligible

/-!
Costs adjusted to an alignment, cell by cell. However the counterparts of blocks are recorded and
gathered, what is counted are the pairs of the alignment that join a neighbour of the one block to a
neighbour of the other one. Nothing is assumed of the alignment but that it has no block twice.
-/

namespace FlowAlign

def Step.pair? : Step → Option (Nat × Nat)
  | insertion _ => none
  | deletion _ => none
  | pairing row column => some (row, column)

/-- The kinds of the outgoing edges as a set, switch edges with their values. -/
def Block.kindSet (block : Block) : Finset (EdgeKind × Option Int) :=
  (block.edges.map fun edge => (edge.kind, edge.value)).toFinset

namespace Align

/-- Entries in any order, with every position of either sequence in one of them at most. -/
structure Placed (height width : Nat) (steps : List Step) : Prop where
  rows_nodup : (steps.filterMap Step.row?).Nodup
  columns_nodup : (steps.filterMap Step.column?).Nodup
  rows_inside : ∀ row ∈ steps.filterMap Step.row?, row < height
  columns_inside : ∀ column ∈ steps.filterMap Step.column?, column < width

def pairsOf (steps : List Step) : List (Nat × Nat) :=
  steps.filterMap Step.pair?

theorem mem_pairsOf {steps : List Step} {row column : Nat} :
    (row, column) ∈ pairsOf steps ↔ Step.pairing row column ∈ steps := by
  rw [pairsOf, List.mem_filterMap]
  constructor
  · rintro ⟨step, member, isPair⟩
    cases step with
    | insertion _ => cases isPair
    | deletion _ => cases isPair
    | pairing _ _ => cases isPair; exact member
  · exact fun member => ⟨_, member, rfl⟩

theorem pairsOf_rows_sublist (steps : List Step) :
    List.Sublist ((pairsOf steps).map Prod.fst) (steps.filterMap Step.row?) := by
  induction steps with
  | nil => exact .slnil
  | cons step rest ih =>
      cases step with
      | insertion _ => exact ih
      | deletion row => exact ih.cons row
      | pairing row _ => exact ih.cons_cons row

namespace Placed

variable {height width : Nat} {steps : List Step}

theorem pairing_inside (placed : Placed height width steps) {row column : Nat}
    (member : Step.pairing row column ∈ steps) : row < height ∧ column < width :=
  ⟨placed.rows_inside row (List.mem_filterMap.mpr ⟨_, member, rfl⟩),
    placed.columns_inside column (List.mem_filterMap.mpr ⟨_, member, rfl⟩)⟩

theorem partner_inside (placed : Placed height width steps) {column : Nat}
    (member : some column ∈ partnersOf height steps) : column < width := by
  rcases mem_foldl_record steps _ member with never | ⟨row, paired⟩
  · simp at never
  · exact (placed.pairing_inside paired).2

end Placed

section Partners

theorem length_foldl_record : ∀ (steps : List Step) (partners : List (Option Nat)),
    (steps.foldl record partners).length = partners.length := by
  intro steps
  induction steps with
  | nil =>
      intro partners
      rfl
  | cons step rest ih =>
      intro partners
      rw [List.foldl_cons, ih]
      cases step with
      | insertion _ => rfl
      | deletion _ => rfl
      | pairing row _ => exact List.length_set

/-- A position has the counterpart that it is paired with. -/
theorem partnersOf_iff {height row column : Nat} {steps : List Step}
    (distinct : (steps.filterMap Step.row?).Nodup)
    (inside : ∀ row ∈ steps.filterMap Step.row?, row < height) :
    (partnersOf height steps).getD row none = some column ↔ Step.pairing row column ∈ steps := by
  -- the last entry is recorded last
  induction steps using List.reverseRecOn with
  | nil =>
      rw [partnersOf, List.foldl_nil, List.getD_eq_getElem?_getD, List.getElem?_replicate]
      split <;> simp
  | append_singleton steps last ih =>
      rw [List.filterMap_append] at distinct inside
      obtain ⟨front, _, apart⟩ := List.nodup_append.mp distinct
      have known := ih front fun row member => inside row (List.mem_append_left _ member)
      have length : (partnersOf height steps).length = height := by
        rw [partnersOf, length_foldl_record, List.length_replicate]
      rw [partnersOf, List.foldl_append, List.mem_append]
      cases last with
      | insertion _ => simpa [record, partnersOf] using known
      | deletion _ => simpa [record, partnersOf] using known
      | pairing other counterpart =>
          have below : other < height := inside other (by simp [Step.row?])
          have fresh : other ∉ steps.filterMap Step.row? :=
            fun member => apart other member other (by simp [Step.row?]) rfl
          change ((partnersOf height steps).set other (some counterpart)).getD row none = _ ↔ _
          rw [List.getD_eq_getElem?_getD, List.getElem?_set, length]
          by_cases same : other = row
          · subst same
            have never : ¬Step.pairing other column ∈ steps :=
              fun member => fresh (List.mem_filterMap.mpr ⟨_, member, rfl⟩)
            simp [below, never, eq_comm]
          · rw [← known, List.getD_eq_getElem?_getD]
            simp [same, Ne.symm same]

theorem partnersFrom_pairsOf : ∀ (steps : List Step) (partners : List (Option Nat)),
    (∀ row column, Step.pairing row column ∈ steps → row < partners.length ∧ column < 2 ^ 63) →
    partnersFrom partners ((pairsOf steps).map fun pair => ((pair.1 : Int), (pair.2 : Int))) =
      .ok (steps.foldl record partners) := by
  intro steps
  induction steps with
  | nil =>
      intro partners _
      rfl
  | cons step rest ih =>
      intro partners inside
      cases step with
      | insertion _ => exact ih partners fun _ _ member => inside _ _ (List.mem_cons_of_mem _ member)
      | deletion _ => exact ih partners fun _ _ member => inside _ _ (List.mem_cons_of_mem _ member)
      | pairing row column =>
          obtain ⟨rowInside, columnInside⟩ := inside row column List.mem_cons_self
          have later := ih (partners.set row (some column)) fun _ _ member => by
            rw [List.length_set]
            exact inside _ _ (List.mem_cons_of_mem _ member)
          have isWord : Edit.isWord (column : Int) = true := by
            simp only [Edit.isWord, Bool.and_eq_true, decide_eq_true_eq]
            omega
          have place : Position.resolve partners.length (row : Int) = .ok row :=
            resolve_inside ⟨Int.natCast_nonneg row, Int.ofNat_lt.mpr rowInside⟩
          have forward : ¬(column : Int) < 0 := Int.not_lt.mpr (Int.natCast_nonneg column)
          rw [List.foldl_cons, record, ← later]
          simp [pairsOf, Step.pair?, partnersFrom, place, isWord, forward, Outcome.ok_bind]

end Partners

section Share

/-- How many pairs lead from some blocks to others. -/
def joining (pairs : List (Nat × Nat)) (first second : List Int) : Nat :=
  pairs.countP fun pair => decide ((pair.1 : Int) ∈ first ∧ (pair.2 : Int) ∈ second)

/-- The share of the neighbours of two blocks that an alignment joins, one where there are none. -/
def neighbourShare (primary secondary : FlowGraph) (steps : List Step) (row column : Nat) : Rat :=
  let joined := joining (pairsOf steps) (primary.successors row) (secondary.successors column) +
    joining (pairsOf steps) (primary.predecessors row) (secondary.predecessors column)
  let total := max (primary.successors row).length (secondary.successors column).length +
    max (primary.predecessors row).length (secondary.predecessors column).length
  if total = 0 then 1 else (joined : Rat) / total

theorem mem_map_toNat {ids : List Int} (nonneg : ∀ id ∈ ids, 0 ≤ id) {position : Nat} :
    position ∈ ids.map Int.toNat ↔ (position : Int) ∈ ids := by
  rw [List.mem_map]
  constructor
  · rintro ⟨id, member, rfl⟩
    rwa [Int.toNat_of_nonneg (nonneg id member)]
  · exact fun member => ⟨position, member, Int.toNat_natCast position⟩

/-- Counterparts among some blocks are pairs that lead there. -/
theorem common_counterparts {height width : Nat} {steps : List Step}
    (placed : Placed height width steps) {first second : List Int}
    (firstDistinct : (first.map Int.toNat).Nodup) (secondDistinct : (second.map Int.toNat).Nodup)
    (firstNonneg : ∀ id ∈ first, 0 ≤ id) (secondNonneg : ∀ id ∈ second, 0 ≤ id) :
    common ((first.map Int.toNat).filterMap fun position =>
        (partnersOf height steps).getD position none) (second.map Int.toNat) =
      joining (pairsOf steps) first second := by
  have joined : ((pairsOf steps).filter fun pair =>
      decide ((pair.1 : Int) ∈ first ∧ (pair.2 : Int) ∈ second)).map Prod.fst |>.Nodup :=
    ((placed.rows_nodup.sublist (pairsOf_rows_sublist steps)).sublist
      (List.filter_sublist.map Prod.fst))
  rw [common_eq_countP _ secondDistinct, List.countP_filterMap, List.countP_eq_length_filter, joining,
    List.countP_eq_length_filter, ← List.length_map Prod.fst]
  refine ((List.perm_ext_iff_of_nodup (firstDistinct.filter _) joined).mpr ?_).length_eq
  intro position
  simp only [List.mem_filter, mem_map_toNat firstNonneg, mem_map_toNat secondNonneg, List.mem_map,
    Prod.exists, exists_and_right, exists_eq_right, decide_eq_true_eq, mem_pairsOf,
    ← partnersOf_iff placed.rows_nodup placed.rows_inside]
  cases (partnersOf height steps).getD position none with
  | none => simp
  | some column => simp

variable {primary secondary : FlowGraph} (primaryFormed : primary.WellFormed)
  (secondaryFormed : secondary.WellFormed)

include primaryFormed secondaryFormed

theorem agreement_eq {steps : List Step} (placed : Placed primary.size secondary.size steps)
    (row column : Nat) :
    (agreement (around primary row)
      ((around primary row).counterparts (partnersOf primary.size steps))
      (around secondary column) : Rat) = neighbourShare primary secondary steps row column := by
  have near := around_distinct primaryFormed row
  have near' := around_distinct secondaryFormed column
  have next := common_counterparts placed near.next near'.next
    (fun id member => (primaryFormed.successors_inside member).1)
    (fun id member => (secondaryFormed.successors_inside member).1)
  have previous := common_counterparts placed near.previous near'.previous
    (fun id member => (primaryFormed.predecessors_inside member).1)
    (fun id member => (secondaryFormed.predecessors_inside member).1)
  simp only [agreement, Neighbours.counterparts, share, neighbourShare, around, List.length_map,
    Quantity.rat_whole, Quantity.rat_div] at next previous ⊢
  rw [next, previous]
  split
  · rename_i positive
    rw [if_neg (by omega)]
  · rename_i none'
    rw [if_pos (by omega)]
    rfl

end Share

/-- The tables of a matcher by the blocks alone. -/
def Tabled (options : Options Rat) (primary secondary : FlowGraph) (costs : Costs Rat) : Prop :=
  costs.height = primary.size ∧ costs.width = secondary.size ∧
  ∀ row < primary.size, ∀ column < secondary.size,
    let similarity := Measure.likeness (primary.blockAt row).tokens (secondary.blockAt column).tokens
    costs.get? row column = some
      { similarity := similarity
        eligible := options.isEligible similarity
        base := if options.isEligible similarity then 1 - similarity else 2 * options.gapCost + 1
        kindDistance :=
          setDistance (primary.blockAt row).kindSet (secondary.blockAt column).kindSet }

/-- A table adjusted to an alignment: cells of eligible pairs are rewarded for neighbours that the
alignment joins and penalized for edges of other kinds, all others cost more than two gaps. -/
structure Adjusted (options : Options Rat) (primary secondary : FlowGraph) (steps : List Step)
    (grid : Grid Rat) : Prop where
  height_eq : grid.height = primary.size
  width_eq : grid.width = secondary.size
  even : grid.Rectangular
  cells : ∀ row < primary.size, ∀ column < secondary.size,
    let similarity := Measure.likeness (primary.blockAt row).tokens (secondary.blockAt column).tokens
    let share := neighbourShare primary secondary steps row column
    let distance := setDistance (primary.blockAt row).kindSet (secondary.blockAt column).kindSet
    (0 ≤ share ∧ share ≤ 1) ∧ (0 ≤ distance ∧ distance ≤ 1) ∧
    grid.get? row column = some
      (if options.isEligible similarity then
        1 - similarity - options.topologyWeight * share + options.edgePenalty * distance
      else 2 * options.gapCost + 1)

theorem jaccard_edgeKinds (first second : Block) :
    (jaccard first.edgeKinds second.edgeKinds : Rat) = setDistance first.kindSet second.kindSet := by
  have kinds : ∀ block : Block, block.edgeKinds.toFinset = block.kindSet := by
    intro block
    ext kind
    simp [Block.edgeKinds, Block.kindSet, List.mem_eraseDups]
  rw [jaccard_eq, kinds, kinds]

theorem costsOf_tabled (options : Options Rat) (primary secondary : FlowGraph) :
    Tabled options primary secondary (costsOf options primary secondary) := by
  refine ⟨by simp [Grid.height, costsOf, FlowGraph.size], rfl, ?_⟩
  intro row rowInside column columnInside
  rw [costsOf_get? options rowInside columnInside]
  simp only [pairCost, baseCost, jaccard_edgeKinds, options.ineligibleCost_eq, Quantity.rat_whole,
    Quantity.rat_sub, Nat.cast_one]

section

variable {primary secondary : FlowGraph} (primaryFormed : primary.WellFormed)
  (secondaryFormed : secondary.WellFormed)

include primaryFormed secondaryFormed

theorem refinedOf_adjusted (options : Options Rat) {steps : List Step}
    (placed : Placed primary.size secondary.size steps) :
    Adjusted options primary secondary steps
      (refinedOf options primary secondary (partnersOf primary.size steps)) := by
  have even := refinedOf_rectangular options primary secondary (partnersOf primary.size steps)
  have height := refinedOf_height options primary secondary (partnersOf primary.size steps)
  refine ⟨height, rfl, even, ?_⟩
  intro row rowInside column columnInside
  have share := agreement_eq primaryFormed secondaryFormed placed row column
  refine ⟨?_, ⟨setDistance_nonneg _ _, setDistance_le_one _ _⟩, ?_⟩
  · rw [← share]
    exact ⟨agreement_nonneg _ _ _, agreement_le_one _ _ (around_distinct secondaryFormed column)⟩
  · rw [Grid.get?_eq_some even (Quantity.whole 0) (height.symm ▸ rowInside) columnInside,
      refinedOf_get options rowInside columnInside, share, refinedCost, pairCost]
    by_cases eligible : options.isEligible (Measure.likeness (primary.blockAt row).tokens
        (secondary.blockAt column).tokens) = true
    · simp [eligible, baseCost, jaccard_edgeKinds]
    · simp [eligible, options.ineligibleCost_eq]

end

/-- Adjusting the costs of two checked graphs to any alignment that has no block twice gives the specified
table, cell by cell, while the tables of the matcher are the same for every alignment. There are none to
adjust when blocks are matched by name. -/
theorem refinedCosts_adjusted (options : Options Rat) (primary secondary : FlowGraph)
    (primaryChecked : primary.check = .ok ()) (secondaryChecked : secondary.check = .ok ()) :
    ∃ matcher, (process options primary secondary).outcome = .ok matcher ∧
      (isDegraded options primary secondary = true → matcher.costs = none ∧
        ∀ steps, Placed primary.size secondary.size steps → secondary.size ≤ 2 ^ 63 →
          adjustedCosts matcher ((pairsOf steps).map fun pair => ((pair.1 : Int), (pair.2 : Int))) =
            .error (.data .wrongType)) ∧
      (isDegraded options primary secondary = false → ∃ costs, matcher.costs = some costs ∧
        Tabled options primary secondary costs ∧
        ∀ steps, Placed primary.size secondary.size steps → ∃ grid,
          refinedCosts options costs primary secondary (partnersOf primary.size steps) = .ok grid ∧
          (secondary.size ≤ 2 ^ 63 →
            adjustedCosts matcher
              ((pairsOf steps).map fun pair => ((pair.1 : Int), (pair.2 : Int))) = .ok grid) ∧
          Adjusted options primary secondary steps grid) := by
  have primaryFormed := FlowGraph.check_wellFormed primaryChecked
  have secondaryFormed := FlowGraph.check_wellFormed secondaryChecked
  obtain ⟨matcher, processed, ready⟩ := process_ready options secondary primaryFormed.nonempty
  have recorded : ∀ steps, Placed primary.size secondary.size steps → secondary.size ≤ 2 ^ 63 →
      partnersFrom (List.replicate primary.size none)
        ((pairsOf steps).map fun pair => ((pair.1 : Int), (pair.2 : Int))) =
        .ok (partnersOf primary.size steps) := by
    intro steps placed words
    apply partnersFrom_pairsOf
    intro row column member
    obtain ⟨rowInside, columnInside⟩ := placed.pairing_inside member
    rw [List.length_replicate]
    exact ⟨rowInside, Nat.lt_of_lt_of_le columnInside words⟩
  refine ⟨matcher, processed, ?_, ?_⟩
  · intro degraded
    have costs : matcher.costs = none := by
      simp [ready.costs_eq, degraded]
    refine ⟨costs, ?_⟩
    intro steps placed words
    simp only [adjustedCosts, ready.primary_eq, ready.secondary_eq, costs,
      recorded steps placed words, Outcome.ok_bind, topology_eq primaryFormed secondaryFormed
        fun _ => placed.partner_inside]
    rfl
  · intro full
    have costs : matcher.costs = some (costsOf options primary secondary) := by
      simp [ready.costs_eq, full]
    refine ⟨_, costs, costsOf_tabled options primary secondary, ?_⟩
    intro steps placed
    have refined := refinedCosts_eq options primaryFormed secondaryFormed
      fun _ => placed.partner_inside
    refine ⟨_, refined, ?_, refinedOf_adjusted primaryFormed secondaryFormed options placed⟩
    intro words
    simp only [adjustedCosts, ready.options_eq, ready.primary_eq, ready.secondary_eq, costs,
      recorded steps placed words, Outcome.ok_bind, refined]

/-- A loop aligned with itself crosswise. -/
def crossed : List Step := [.pairing 0 1, .pairing 1 0]

theorem refinedCosts_adjusted_crossed :
    loopGraph.check = .ok () ∧ Placed 2 2 crossed ∧
    neighbourShare loopGraph loopGraph crossed 0 0 = 2 / 3 ∧
    ∃ matcher costs,
      (process (Options.standard : Options Rat) loopGraph loopGraph).outcome = .ok matcher ∧
      matcher.costs = some costs ∧ Tabled Options.standard loopGraph loopGraph costs ∧
      ∃ grid, refinedCosts Options.standard costs loopGraph loopGraph (partnersOf 2 crossed) =
          .ok grid ∧
        adjustedCosts matcher [(0, 1), (1, 0)] = .ok grid ∧
        Adjusted Options.standard loopGraph loopGraph crossed grid := by
  have checked : loopGraph.check = .ok () := by rfl
  have placed : Placed loopGraph.size loopGraph.size crossed :=
    ⟨by decide, by decide, by decide, by decide⟩
  obtain ⟨matcher, processed, _, full⟩ :=
    refinedCosts_adjusted Options.standard loopGraph loopGraph checked checked
  obtain ⟨costs, isCosts, tabled, adjusted⟩ := full (by decide)
  obtain ⟨grid, refined, asked, cells⟩ := adjusted crossed placed
  exact ⟨checked, placed, by with_unfolding_all decide, matcher, costs, processed, isCosts, tabled, grid, refined,
    asked (by decide), cells⟩

end Align

end FlowAlign
