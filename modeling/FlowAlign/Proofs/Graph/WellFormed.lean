import FlowAlign.Graph.Check

/-! What a graph that passes its check can be relied on for. -/

namespace FlowAlign.FlowGraph

structure WellFormed (graph : FlowGraph) : Prop where
  nonempty : graph.blocks ≠ []
  placed : ∀ (position : Nat) (block : Block), graph.blocks[position]? = some block →
    block.id = position ∧ ∀ edge ∈ block.edges,
      edge.source = position ∧ 0 ≤ edge.target ∧ edge.target < graph.size
  labelled : graph.display.labels.length = graph.size

theorem blockFault?_none {graph : FlowGraph} : ∀ (blocks : List Block) (start : Nat),
    graph.blockFault? start blocks = none →
    ∀ (offset : Nat) (block : Block), blocks[offset]? = some block →
      block.id = (start + offset : Nat) ∧ ∀ edge ∈ block.edges,
        edge.source = (start + offset : Nat) ∧ 0 ≤ edge.target ∧ edge.target < graph.size := by
  intro blocks
  induction blocks with
  | nil =>
      intro start _ offset block found
      simp at found
  | cons first rest ih =>
      intro start sound offset block found
      simp only [blockFault?] at sound
      split at sound
      · simp at sound
      · rename_i atPlace
        split at sound
        · simp at sound
        · rename_i noneFound
          cases offset with
          | succ offset =>
              have later := ih (start + 1) sound offset block (by simpa using found)
              have sum : start + 1 + offset = start + (offset + 1) := by omega
              rwa [sum] at later
          | zero =>
              simp only [List.getElem?_cons_zero, Option.some.injEq] at found
              subst found
              refine ⟨by simpa using atPlace, ?_⟩
              intro edge member
              have checked := List.find?_eq_none.mp noneFound edge member
              simpa [isSound, and_assoc] using checked

theorem check_eq_ok_iff {graph : FlowGraph} :
    graph.check = .ok () ↔ graph.blocks ≠ [] ∧ graph.blockFault? 0 graph.blocks = none ∧
      graph.display.labels.length = graph.size ∧ graph.reachable.length = graph.size := by
  simp only [check]
  split
  · rename_i empty
    simp [List.isEmpty_iff.mp empty]
  · rename_i filled
    split
    · rename_i fault found
      simp [found]
    · rename_i noFault
      split
      · rename_i unequal
        simp [unequal]
      · rename_i labelled
        split
        · rename_i unequal
          simp [unequal]
        · rename_i reached
          simp only [ne_eq, Decidable.not_not] at labelled reached
          simpa [noFault, labelled, reached] using filled

theorem check_wellFormed {graph : FlowGraph} (checked : graph.check = .ok ()) :
    graph.WellFormed := by
  obtain ⟨nonempty, noFault, labelled, _⟩ := check_eq_ok_iff.mp checked
  refine ⟨nonempty, ?_, labelled⟩
  intro position block found
  have sound := blockFault?_none graph.blocks 0 noFault position block found
  simpa using sound

namespace WellFormed

variable {graph : FlowGraph}

theorem size_pos (formed : graph.WellFormed) : 0 < graph.size :=
  List.length_pos_iff.mpr formed.nonempty

theorem edge_inside (formed : graph.WellFormed) {edge : Edge} (member : edge ∈ graph.edges) :
    (0 ≤ edge.source ∧ edge.source < graph.size) ∧ 0 ≤ edge.target ∧ edge.target < graph.size := by
  obtain ⟨block, isBlock, isEdge⟩ := List.mem_flatMap.mp member
  obtain ⟨position, below, found⟩ := List.mem_iff_getElem.mp isBlock
  obtain ⟨_, edges⟩ := formed.placed position block (by rw [List.getElem?_eq_getElem below, found])
  obtain ⟨source, target⟩ := edges edge isEdge
  have bound : position < graph.size := below
  exact ⟨by omega, target⟩

theorem successors_inside (formed : graph.WellFormed) {id target : Int}
    (member : target ∈ graph.successors id) : 0 ≤ target ∧ target < graph.size := by
  simp only [successors, List.mem_eraseDups, List.mem_map, List.mem_filter] at member
  obtain ⟨edge, ⟨isEdge, _⟩, rfl⟩ := member
  exact (formed.edge_inside isEdge).2

theorem predecessors_inside (formed : graph.WellFormed) {id source : Int}
    (member : source ∈ graph.predecessors id) : 0 ≤ source ∧ source < graph.size := by
  simp only [predecessors, List.mem_eraseDups, List.mem_map, List.mem_filter] at member
  obtain ⟨edge, ⟨isEdge, _⟩, rfl⟩ := member
  exact (formed.edge_inside isEdge).1

end WellFormed

end FlowAlign.FlowGraph
