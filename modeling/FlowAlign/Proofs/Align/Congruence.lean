import FlowAlign.Proofs.Align.Cover
import FlowAlign.Proofs.Graph.Shape

/-!
The alignment of two graphs depends on their shapes alone. Names, labels and texts do not influence
it, unless blocks are matched by name.
-/

namespace FlowAlign.Align

variable {α : Type} [Quantity α]

section

variable {primary secondary primary' secondary' : FlowGraph}

theorem edgeKinds_eq_of_shape {first second : Block} (same : first.shape = second.shape) :
    first.edgeKinds = second.edgeKinds := by
  rw [Block.edgeKinds, Block.edgeKinds, show first.edges = second.edges from
    congrArg Block.Shape.edges same]

theorem keys_eq_of_shape {first second : Block} (same : first.shape = second.shape) :
    first.tokens.map Token.key = second.tokens.map Token.key :=
  congrArg Block.Shape.tokens same

theorem likeness_eq_of_shape {first second first' second' : Block}
    (sameFirst : first.shape = first'.shape) (sameSecond : second.shape = second'.shape) :
    (Measure.likeness first.tokens second.tokens : α) =
      Measure.likeness first'.tokens second'.tokens :=
  Measure.likeness_congr (keys_eq_of_shape sameFirst) (keys_eq_of_shape sameSecond)

theorem blockAt_shape (same : primary.shape = primary'.shape) (position : Nat) :
    (primary.blockAt position).shape = (primary'.blockAt position).shape := by
  have found := congrArg (fun shapes => shapes[position]?) same
  simp only [FlowGraph.shape, List.getElem?_map] at found
  simp only [FlowGraph.blockAt, List.getD_eq_getElem?_getD]
  cases first : primary.blocks[position]? <;> cases second : primary'.blocks[position]? <;>
    simp_all

variable (samePrimary : primary.shape = primary'.shape)
  (sameSecondary : secondary.shape = secondary'.shape)

include samePrimary sameSecondary

omit [Quantity α] in
theorem isDegraded_congr (options : Options α) :
    isDegraded options primary secondary = isDegraded options primary' secondary' := by
  rw [isDegraded, isDegraded, FlowGraph.size_eq_of_shape samePrimary,
    FlowGraph.size_eq_of_shape sameSecondary]

theorem costsOf_congr (options : Options α) :
    costsOf options primary secondary = costsOf options primary' secondary' := by
  have cell : ∀ first first' second second' : Block, first.shape = first'.shape →
      second.shape = second'.shape →
      pairCost options first second (Measure.likeness first.tokens second.tokens) =
        pairCost options first' second' (Measure.likeness first'.tokens second'.tokens) := by
    intro first first' second second' sameFirst sameSecond
    simp only [pairCost, likeness_eq_of_shape sameFirst sameSecond,
      edgeKinds_eq_of_shape sameFirst, edgeKinds_eq_of_shape sameSecond]
  simp only [costsOf, FlowGraph.size_eq_of_shape sameSecondary, Grid.mk.injEq, true_and]
  have rows : ∀ first : Block, (secondary.blocks.map fun second =>
      pairCost options first second (Measure.likeness first.tokens second.tokens)) =
      secondary'.blocks.map fun second =>
        pairCost options first second (Measure.likeness first.tokens second.tokens) :=
    fun first => FlowGraph.map_eq_of_shape (fun _ _ same => cell _ _ _ _ rfl same) sameSecondary
  simp only [rows]
  refine FlowGraph.map_eq_of_shape ?_ samePrimary
  intro first first' same
  exact List.map_congr_left fun second _ => cell _ _ _ _ same rfl

theorem refineOnce_congr (options : Options α) (costs : Costs α) :
    refineOnce options costs primary secondary = refineOnce options costs primary' secondary' := by
  funext steps
  simp only [refineOnce, refinedCosts, topology, neighbours,
    FlowGraph.size_eq_of_shape samePrimary, FlowGraph.size_eq_of_shape sameSecondary,
    FlowGraph.ids_eq_of_shape samePrimary, FlowGraph.ids_eq_of_shape sameSecondary,
    FlowGraph.successors_eq_of_shape samePrimary, FlowGraph.successors_eq_of_shape sameSecondary,
    FlowGraph.predecessors_eq_of_shape samePrimary,
    FlowGraph.predecessors_eq_of_shape sameSecondary]

theorem entryOf_congr (options : Options α) :
    entryOf options primary secondary = entryOf options primary' secondary' := by
  funext step
  cases step with
  | insertion column => rfl
  | deletion row => rfl
  | pairing row column =>
      have first := blockAt_shape samePrimary row
      have second := blockAt_shape sameSecondary column
      simp only [entryOf, pairStatus, likeness_eq_of_shape first second,
        edgeKinds_eq_of_shape first, edgeKinds_eq_of_shape second, keys_eq_of_shape first,
        keys_eq_of_shape second]

theorem pathOf_congr (options : Options α) :
    pathOf options primary secondary = pathOf options primary' secondary' := by
  simp only [pathOf, costsOf_congr samePrimary sameSecondary,
    refineOnce_congr samePrimary sameSecondary, FlowGraph.size_eq_of_shape samePrimary,
    FlowGraph.size_eq_of_shape sameSecondary]

end

/-- Graphs of the same shapes have the same entries. -/
theorem align_congr (options : Options α) {primary secondary primary' secondary' : FlowGraph}
    (samePrimary : primary.shape = primary'.shape)
    (sameSecondary : secondary.shape = secondary'.shape)
    (primaryFormed : primary.WellFormed) (secondaryFormed : secondary.WellFormed)
    (primaryFormed' : primary'.WellFormed) (secondaryFormed' : secondary'.WellFormed)
    (full : isDegraded options primary secondary = false) :
    (align options primary secondary).outcome.map Alignment.entries =
      (align options primary' secondary').outcome.map Alignment.entries := by
  have full' : isDegraded options primary' secondary' = false := by
    rwa [← isDegraded_congr samePrimary sameSecondary]
  rw [align_outcome options primaryFormed secondaryFormed full,
    align_outcome options primaryFormed' secondaryFormed' full',
    pathOf_congr samePrimary sameSecondary]
  cases pathOf options primary' secondary' with
  | error fault => rfl
  | ok steps =>
      simp only [Except.map, alignmentOf, entryOf_congr samePrimary sameSecondary]

end FlowAlign.Align
