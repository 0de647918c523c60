import FlowAlign.Proofs.Align.Cheapest
import FlowAlign.Proofs.Align.Topology

/-!
The entries of an alignment in closed form. A path through two graphs is classified step by step, the
similarity of a pair being the likeness of its blocks, and the result is always valid.
-/

namespace FlowAlign

def FlowGraph.blockAt (graph : FlowGraph) (position : Nat) : Block :=
  graph.blocks.getD position { id := position, tokens := [], edges := [] }

theorem FlowGraph.getElem?_blockAt {graph : FlowGraph} {position : Nat}
    (inside : position < graph.size) : graph.blocks[position]? = some (graph.blockAt position) := by
  have found := List.getElem?_eq_getElem inside
  rw [blockAt, List.getD_eq_getElem?_getD, found, Option.getD_some]

namespace Align

variable {α : Type} [Quantity α]

def entryOf (options : Options α) (primary secondary : FlowGraph) : Step → Entry α
  | .insertion column =>
      { primary := none, secondary := some column, status := .inserted
        similarity := Quantity.whole 0 }
  | .deletion row =>
      { primary := some row, secondary := none, status := .deleted
        similarity := Quantity.whole 0 }
  | .pairing row column =>
      let first := primary.blockAt row
      let second := secondary.blockAt column
      let similarity := Measure.likeness first.tokens second.tokens
      { primary := some row, secondary := some column
        status := pairStatus options first second similarity
        similarity := similarity }

theorem entryOf_primary (options : Options α) (primary secondary : FlowGraph) (step : Step) :
    (entryOf options primary secondary step).primary = step.row?.map Int.ofNat := by
  cases step <;> rfl

theorem entryOf_secondary (options : Options α) (primary secondary : FlowGraph) (step : Step) :
    (entryOf options primary secondary step).secondary = step.column?.map Int.ofNat := by
  cases step <;> rfl

theorem pairStatus_eq (options : Options α) (first second : Block) (similarity : α) :
    pairStatus options first second similarity = .matched ∨
      pairStatus options first second similarity = .modified := by
  simp only [pairStatus]
  split
  · exact Or.inl rfl
  · exact Or.inr rfl

theorem pairStatus_matched {options : Options α} {first second : Block} {similarity : α}
    (matched : pairStatus options first second similarity = .matched) :
    first.tokens.map Token.key = second.tokens.map Token.key ∧
      ∀ kind, kind ∈ first.edgeKinds ↔ kind ∈ second.edgeKinds := by
  simp only [pairStatus] at matched
  split at matched
  · rename_i agree
    simp only [Bool.and_eq_true, decide_eq_true_eq, List.all_eq_true, List.contains_iff_mem] at agree
    exact ⟨agree.1.2, fun kind => ⟨agree.2.1 kind, agree.2.2 kind⟩⟩
  · simp at matched

theorem costsOf_get? (options : Options α) {primary secondary : FlowGraph} {row column : Nat}
    (rowInside : row < primary.size) (columnInside : column < secondary.size) :
    (costsOf options primary secondary).get? row column =
      some (pairCost options (primary.blockAt row) (secondary.blockAt column)
        (Measure.likeness (primary.blockAt row).tokens (secondary.blockAt column).tokens)) := by
  simp [Grid.get?, costsOf, List.getElem?_map, FlowGraph.getElem?_blockAt rowInside,
    FlowGraph.getElem?_blockAt columnInside]

theorem costsOf_base_get (options : Options α) {primary secondary : FlowGraph} {row column : Nat}
    (rowInside : row < primary.size) (columnInside : column < secondary.size) :
    (costsOf options primary secondary).base.get (Quantity.whole 0) row column =
      baseCost options (Measure.likeness (primary.blockAt row).tokens
        (secondary.blockAt column).tokens) := by
  simp [Grid.get, Grid.get?, Costs.base, Grid.map, costsOf, pairCost,
    FlowGraph.getElem?_blockAt rowInside, FlowGraph.getElem?_blockAt columnInside]

theorem refinedOf_get (options : Options α) {primary secondary : FlowGraph}
    {partners : List (Option Nat)} {row column : Nat}
    (rowInside : row < primary.size) (columnInside : column < secondary.size) :
    (refinedOf options primary secondary partners).get (Quantity.whole 0) row column =
      refinedCost options (agreement (around primary row)
        ((around primary row).counterparts partners) (around secondary column))
        (pairCost options (primary.blockAt row) (secondary.blockAt column)
          (Measure.likeness (primary.blockAt row).tokens (secondary.blockAt column).tokens)) := by
  simp [Grid.get, Grid.get?, refinedOf, costsOf, FlowGraph.ids, List.getElem?_zipWith,
    FlowGraph.getElem?_blockAt rowInside, FlowGraph.getElem?_blockAt columnInside, rowInside,
    columnInside]

theorem costsOf_base_height (options : Options α) (primary secondary : FlowGraph) :
    (costsOf options primary secondary).base.height = primary.size := by
  simp [Costs.base, Grid.map, Grid.height, costsOf, FlowGraph.size]

theorem costsOf_base_rectangular (options : Options α) (primary secondary : FlowGraph) :
    (costsOf options primary secondary).base.Rectangular := by
  intro row member
  simp only [Costs.base, Grid.map, costsOf, List.mem_map, exists_exists_and_eq_and] at member
  obtain ⟨first, _, rfl⟩ := member
  simp [Costs.base, Grid.map, costsOf, FlowGraph.size]

theorem refinedOf_rectangular (options : Options α) (primary secondary : FlowGraph)
    (partners : List (Option Nat)) :
    (refinedOf options primary secondary partners).Rectangular := by
  intro row member
  obtain ⟨position, inside, found⟩ := List.mem_iff_getElem.mp member
  simp only [refinedOf, costsOf, List.getElem_zipWith, List.getElem_map] at found
  simp [← found, refinedOf, FlowGraph.ids, FlowGraph.size]

/-- A matcher made ready for two graphs. -/
structure Ready (matcher : Matcher α) (options : Options α) (primary secondary : FlowGraph) :
    Prop where
  options_eq : matcher.options = options
  primary_eq : matcher.primary = primary
  secondary_eq : matcher.secondary = secondary
  sound : matcher.measure.Sound
  costs_eq : matcher.costs = if isDegraded options primary secondary then none
    else some (costsOf options primary secondary)

variable {matcher : Matcher α} {options : Options α} {primary secondary : FlowGraph}

theorem pairSimilarity_spec (ready : Ready matcher options primary secondary) {measure : Measure α}
    (sound : measure.Sound) {row column : Nat} (rowInside : row < primary.size)
    (columnInside : column < secondary.size) :
    ∃ after : Measure α, after.Sound ∧
      pairSimilarity matcher measure row column (primary.blockAt row) (secondary.blockAt column) =
        (after, Measure.likeness (primary.blockAt row).tokens (secondary.blockAt column).tokens) := by
  simp only [pairSimilarity, ready.costs_eq]
  by_cases degraded : isDegraded options primary secondary
  · obtain ⟨value, soundAfter⟩ := Measure.similarity_spec sound (primary.blockAt row).tokens
      (secondary.blockAt column).tokens
    simp only [degraded, if_true]
    exact ⟨_, soundAfter, Prod.ext rfl value⟩
  · simp only [degraded]
    refine ⟨measure, sound, ?_⟩
    simp only [Bool.false_eq_true, if_false, costsOf_get? options rowInside columnInside,
      Option.elim_some, pairCost]

theorem classify_eq (ready : Ready matcher options primary secondary)
    {row column lastRow lastColumn : Nat} {steps : List Step}
    (path : Path row column steps lastRow lastColumn) (rows : lastRow ≤ primary.size)
    (columns : lastColumn ≤ secondary.size) :
    ∀ {measure : Measure α}, measure.Sound →
      classify matcher measure steps = .ok (steps.map (entryOf options primary secondary)) := by
  induction path with
  | done => intros; rfl
  | insertion _ ih =>
      intro measure sound
      simp only [classify, ih rows columns sound, Outcome.ok_bind, Outcome.pure_eq, List.map_cons,
        entryOf]
  | deletion _ ih =>
      intro measure sound
      simp only [classify, ih rows columns sound, Outcome.ok_bind, Outcome.pure_eq, List.map_cons,
        entryOf]
  | pairing tail ih =>
      intro measure sound
      have rowInside := Nat.le_trans tail.row_le rows
      have columnInside := Nat.le_trans tail.column_le columns
      obtain ⟨after, soundAfter, value⟩ := pairSimilarity_spec ready sound rowInside columnInside
      simp only [classify, ready.primary_eq, ready.secondary_eq, ready.options_eq,
        FlowGraph.getElem?_blockAt rowInside, FlowGraph.getElem?_blockAt columnInside, value,
        ih rows columns soundAfter, Outcome.ok_bind, Outcome.pure_eq, List.map_cons, entryOf]

def alignmentOf (options : Options α) (primary secondary : FlowGraph) (steps : List Step) :
    Alignment α :=
  { primary := primary
    secondary := secondary
    entries := steps.map (entryOf options primary secondary)
    gapCost := options.gapCost
    degraded := isDegraded options primary secondary }

theorem alignmentOf_primaryIds (options : Options α) {steps : List Step}
    (path : Path 0 0 steps primary.size secondary.size) :
    (alignmentOf options primary secondary steps).primaryIds = primary.ids := by
  have rows := congrArg (List.map Int.ofNat) path.rows_eq
  rw [List.map_filterMap] at rows
  simp only [Alignment.primaryIds, alignmentOf, List.filterMap_map, Function.comp_def,
    entryOf_primary, rows, FlowGraph.ids, Nat.sub_zero, List.range_eq_range']

theorem alignmentOf_secondaryIds (options : Options α) {steps : List Step}
    (path : Path 0 0 steps primary.size secondary.size) :
    (alignmentOf options primary secondary steps).secondaryIds = secondary.ids := by
  have columns := congrArg (List.map Int.ofNat) path.columns_eq
  rw [List.map_filterMap] at columns
  simp only [Alignment.secondaryIds, alignmentOf, List.filterMap_map, Function.comp_def,
    entryOf_secondary, columns, FlowGraph.ids, Nat.sub_zero, List.range_eq_range']

theorem entryOf_fault (options : Options α) (primary secondary : FlowGraph) (step : Step) :
    Alignment.entryFault? (entryOf options primary secondary step) = none := by
  cases step with
  | insertion column => rfl
  | deletion row => rfl
  | pairing row column =>
      rcases pairStatus_eq options (primary.blockAt row) (secondary.blockAt column)
        (Measure.likeness (primary.blockAt row).tokens (secondary.blockAt column).tokens)
        with matched | modified
      · simp [Alignment.entryFault?, entryOf, matched, Entry.isGap, BlockStatus.isGap]
      · simp [Alignment.entryFault?, entryOf, modified, Entry.isGap, BlockStatus.isGap]

theorem alignmentOf_validate (options : Options α) {steps : List Step}
    (path : Path 0 0 steps primary.size secondary.size) :
    (alignmentOf options primary secondary steps).validate = .ok () := by
  have faults : (alignmentOf options primary secondary steps).entries.findSome?
      Alignment.entryFault? = none := by
    rw [List.findSome?_eq_none_iff]
    intro entry member
    obtain ⟨step, _, rfl⟩ := List.mem_map.mp member
    exact entryOf_fault options primary secondary step
  have primaryIds := alignmentOf_primaryIds options path
  have secondaryIds := alignmentOf_secondaryIds options path
  simp only [Alignment.validate, primaryIds, secondaryIds, faults]
  simp [alignmentOf]

/-- A path is always accepted as an alignment. -/
theorem conclude_eq (ready : Ready matcher options primary secondary) {measure : Measure α}
    (sound : measure.Sound) {steps : List Step}
    (path : Path 0 0 steps primary.size secondary.size) :
    conclude matcher measure steps = .ok (alignmentOf options primary secondary steps) := by
  have valid := alignmentOf_validate options path
  simp only [alignmentOf] at valid
  have classified := classify_eq ready path (Nat.le_refl _) (Nat.le_refl _) sound
  simp only [conclude, classified, Outcome.ok_bind, ready.primary_eq, ready.secondary_eq,
    ready.options_eq, valid, Except.mapError, Outcome.pure_eq, alignmentOf]

end Align

end FlowAlign
