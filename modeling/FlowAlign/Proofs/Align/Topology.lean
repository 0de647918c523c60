import FlowAlign.Align.Matcher
import FlowAlign.Proofs.Align.Path
import FlowAlign.Proofs.Graph.WellFormed
import FlowAlign.Proofs.Likeness
import FlowAlign.Proofs.Outcome

/-!
Costs of two well-formed graphs in closed form. Preparing and refining them cannot fail, and both give
a table with a row for every block of the first graph and a column for every block of the second.
-/

namespace FlowAlign.Align

variable {α : Type} [Quantity α]

/-- The costs of all pairs of blocks, by the likeness of the blocks alone. -/
def costsOf (options : Options α) (primary secondary : FlowGraph) : Costs α :=
  { width := secondary.size
    rows := primary.blocks.map fun first => secondary.blocks.map fun second =>
      pairCost options first second (Measure.likeness first.tokens second.tokens) }

theorem prepare_eq (options : Options α) {primary : FlowGraph} (secondary : FlowGraph)
    (nonempty : primary.blocks ≠ []) :
    ∃ measure : Measure α, measure.Sound ∧
      prepare options .empty primary secondary = .ok (measure, costsOf options primary secondary) := by
  obtain ⟨values, sound⟩ := Measure.matrix_spec (Measure.sound_empty (α := α)) primary secondary
  refine ⟨_, sound, ?_⟩
  simp [prepare, nonempty, values, costsOf, List.zipWith_map_right]

theorem resolve_inside {length : Nat} {index : Int} (inside : 0 ≤ index ∧ index < length) :
    Position.resolve length index = .ok index.toNat := by
  simp [Position.resolve, inside]

def around (graph : FlowGraph) (id : Int) : Neighbours :=
  { next := (graph.successors id).map Int.toNat
    previous := (graph.predecessors id).map Int.toNat }

theorem neighbours_eq {graph : FlowGraph} (formed : graph.WellFormed) :
    neighbours graph = .ok (graph.ids.map (around graph)) := by
  apply Outcome.mapM_ok
  intro id _
  have next : (graph.successors id).mapM (Position.resolve graph.size) =
      .ok ((graph.successors id).map Int.toNat) :=
    Outcome.mapM_ok fun target member => resolve_inside (formed.successors_inside member)
  have previous : (graph.predecessors id).mapM (Position.resolve graph.size) =
      .ok ((graph.predecessors id).map Int.toNat) :=
    Outcome.mapM_ok fun source member => resolve_inside (formed.predecessors_inside member)
  simp only [next, previous, Outcome.ok_bind]
  rfl

theorem mem_foldl_record {column : Nat} : ∀ (steps : List Step) (partners : List (Option Nat)),
    some column ∈ steps.foldl record partners →
    some column ∈ partners ∨ ∃ row, Step.pairing row column ∈ steps := by
  intro steps
  induction steps with
  | nil =>
      intro partners member
      exact Or.inl member
  | cons step rest ih =>
      intro partners member
      rcases ih _ member with early | ⟨row, later⟩
      · cases step with
        | insertion _ => exact Or.inl early
        | deletion _ => exact Or.inl early
        | pairing row other =>
            rcases List.mem_or_eq_of_mem_set early with old | new
            · exact Or.inl old
            · obtain rfl : column = other := by simpa using new
              exact Or.inr ⟨row, by simp⟩
      · exact Or.inr ⟨row, List.mem_cons_of_mem _ later⟩

/-- The counterparts in a path are positions of the second sequence. -/
theorem partnersOf_below {steps : List Step} {height width column : Nat}
    (path : Path 0 0 steps height width) (member : some column ∈ partnersOf height steps) :
    column < width := by
  rcases mem_foldl_record steps _ member with none' | ⟨row, paired⟩
  · simp at none'
  · exact path.column_bound paired rfl

theorem counterparts_areBelow {partners : List (Option Nat)} {width : Nat}
    (below : ∀ column, some column ∈ partners → column < width) (near : Neighbours) :
    (near.counterparts partners).areBelow width = true := by
  simp only [Neighbours.areBelow, Neighbours.counterparts, List.all_eq_true, decide_eq_true_eq,
    ← List.filterMap_append, List.mem_filterMap]
  rintro column ⟨position, _, found⟩
  apply below
  rw [List.getD_eq_getElem?_getD] at found
  cases entry : partners[position]? with
  | none => simp [entry] at found
  | some partner =>
      rw [entry, Option.getD_some] at found
      rw [← found]
      exact List.mem_of_getElem? entry

/-- The costs refined by counterparts, by the neighbours of the blocks alone. -/
def refinedOf (options : Options α) (primary secondary : FlowGraph)
    (partners : List (Option Nat)) : Grid α :=
  { width := secondary.size
    rows := List.zipWith (fun id row => List.zipWith (fun other cost =>
      refinedCost options (agreement (around primary id)
        ((around primary id).counterparts partners) (around secondary other)) cost)
      secondary.ids row) primary.ids (costsOf options primary secondary).rows }

theorem topology_eq {primary secondary : FlowGraph} (primaryFormed : primary.WellFormed)
    (secondaryFormed : secondary.WellFormed) {partners : List (Option Nat)}
    (below : ∀ column, some column ∈ partners → column < secondary.size) :
    topology primary secondary partners =
      .ok { primary := primary.ids.map fun id =>
              (around primary id, (around primary id).counterparts partners)
            secondary := secondary.ids.map (around secondary) } := by
  have all : primary.ids.all (fun id =>
      ((around primary id).counterparts partners).areBelow secondary.size) = true := by
    rw [List.all_eq_true]
    exact fun id _ => counterparts_areBelow below _
  simp only [topology, neighbours_eq primaryFormed, neighbours_eq secondaryFormed,
    Outcome.ok_bind, List.map_map, List.all_map, Function.comp_def, all, Bool.not_true,
    Bool.false_eq_true, if_false, Outcome.pure_eq]

theorem refinedCosts_eq (options : Options α) {primary secondary : FlowGraph}
    (primaryFormed : primary.WellFormed) (secondaryFormed : secondary.WellFormed)
    {partners : List (Option Nat)}
    (below : ∀ column, some column ∈ partners → column < secondary.size) :
    refinedCosts options (costsOf options primary secondary) primary secondary partners =
      .ok (refinedOf options primary secondary partners) := by
  simp only [refinedCosts, topology_eq primaryFormed secondaryFormed below, Outcome.ok_bind,
    Outcome.pure_eq, refinedOf, List.zipWith_map_left]
  rfl

theorem refinedOf_height (options : Options α) (primary secondary : FlowGraph)
    (partners : List (Option Nat)) :
    (refinedOf options primary secondary partners).height = primary.size := by
  simp [refinedOf, Grid.height, costsOf, FlowGraph.ids, FlowGraph.size]

/-- Refining an alignment aligns anew under the refined costs. -/
theorem refineOnce_eq (options : Options α) {primary secondary : FlowGraph}
    (primaryFormed : primary.WellFormed) (secondaryFormed : secondary.WellFormed)
    {steps : List Step} (path : Path 0 0 steps primary.size secondary.size) :
    refineOnce options (costsOf options primary secondary) primary secondary steps =
      (globalAlignment (refinedOf options primary secondary (partnersOf primary.size steps))
        options.gapCost).mapError Fault.alignment := by
  have refined := refinedCosts_eq options primaryFormed secondaryFormed
    (fun column member => partnersOf_below path member)
  simp only [refineOnce, refined, Outcome.ok_bind]

end FlowAlign.Align
