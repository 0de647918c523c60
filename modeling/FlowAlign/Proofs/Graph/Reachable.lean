import FlowAlign.Proofs.Graph.Search
import FlowAlign.Proofs.Graph.WellFormed

/-! A graph passes its check exactly when it is well-formed and every block can be reached. -/

namespace FlowAlign.FlowGraph

theorem blockFault?_of_placed {graph : FlowGraph} : ∀ (blocks : List Block) (start : Nat),
    (∀ (offset : Nat) (block : Block), blocks[offset]? = some block →
      block.id = (start + offset : Nat) ∧ ∀ edge ∈ block.edges,
        edge.source = (start + offset : Nat) ∧ 0 ≤ edge.target ∧ edge.target < graph.size) →
    graph.blockFault? start blocks = none := by
  intro blocks
  induction blocks with
  | nil =>
      intro start _
      rfl
  | cons block rest ih =>
      intro start placed
      obtain ⟨atPlace, sound⟩ := placed 0 block rfl
      have later := ih (start + 1) fun offset other found => by
        have sum : start + 1 + offset = start + (offset + 1) := by omega
        rw [sum]
        exact placed (offset + 1) other (by simpa using found)
      have noFault : block.edges.find? (fun edge => !graph.isSound start edge) = none := by
        rw [List.find?_eq_none]
        intro edge member
        have fine := sound edge member
        simpa [isSound, and_assoc] using fine
      simp only [Nat.add_zero] at atPlace
      simp [blockFault?, atPlace, noFault, later]

variable {graph : FlowGraph}

theorem ids_nodup (graph : FlowGraph) : graph.ids.Nodup :=
  List.Nodup.map (fun _ _ equal => Int.ofNat.inj equal) List.nodup_range

theorem mem_ids {id : Int} : id ∈ graph.ids ↔ 0 ≤ id ∧ id < graph.size := by
  simp only [ids, List.mem_map, List.mem_range]
  constructor
  · rintro ⟨position, below, rfl⟩
    simpa using below
  · rintro ⟨nonneg, below⟩
    exact ⟨id.toNat, by omega, by simpa using nonneg⟩

/-- The search from the entry finds the blocks that can be reached, each once. -/
theorem reachable_spec (formed : graph.WellFormed) :
    graph.reachable.Nodup ∧
      ∀ id, id ∈ graph.reachable ↔ Search.Reaches graph.successors 0 id := by
  have inside : ∀ id ∈ graph.ids.toFinset, ∀ other ∈ graph.successors id,
      other ∈ graph.ids.toFinset := by
    intro id _ other follows
    exact List.mem_toFinset.mpr (mem_ids.mpr (formed.successors_inside follows))
  have entry : (0 : Int) ∈ graph.ids.toFinset := by
    have positive := formed.size_pos
    exact List.mem_toFinset.mpr (mem_ids.mpr ⟨le_refl _, by omega⟩)
  have enough : graph.ids.toFinset.card ≤ graph.size := by
    simpa [ids] using List.toFinset_card_le graph.ids
  obtain ⟨distinct, _, reached⟩ := Search.reversePostorder_spec inside enough entry
  exact ⟨distinct, reached⟩

theorem reaches_inside (formed : graph.WellFormed) {id : Int}
    (reaches : Search.Reaches graph.successors 0 id) : 0 ≤ id ∧ id < graph.size := by
  have positive := formed.size_pos
  induction reaches with
  | refl => exact ⟨le_refl _, by omega⟩
  | tail _ follows _ => exact formed.successors_inside follows

theorem check_of_reaches (formed : graph.WellFormed)
    (all : ∀ position < graph.size, Search.Reaches graph.successors 0 position) :
    graph.check = .ok () := by
  obtain ⟨distinct, reached⟩ := reachable_spec formed
  have members : ∀ id, id ∈ graph.reachable ↔ id ∈ graph.ids := by
    intro id
    rw [reached, mem_ids]
    constructor
    · exact reaches_inside formed
    · rintro ⟨nonneg, below⟩
      have reaches := all id.toNat (by omega)
      rwa [Int.toNat_of_nonneg nonneg] at reaches
  have lengths := ((List.perm_ext_iff_of_nodup distinct graph.ids_nodup).mpr members).length_eq
  refine check_eq_ok_iff.mpr ⟨formed.nonempty, ?_, formed.labelled, ?_⟩
  · apply blockFault?_of_placed
    simpa using formed.placed
  · simpa [ids] using lengths

theorem reaches_of_check (checked : graph.check = .ok ()) {position : Nat}
    (below : position < graph.size) : Search.Reaches graph.successors 0 position := by
  have formed := check_wellFormed checked
  obtain ⟨distinct, reached⟩ := reachable_spec formed
  obtain ⟨_, _, _, count⟩ := check_eq_ok_iff.mp checked
  have subset : graph.reachable ⊆ graph.ids := by
    intro id member
    exact mem_ids.mpr (reaches_inside formed ((reached id).mp member))
  -- as many as there are ids, all of them ids and none twice
  have all := (distinct.subperm subset).perm_of_length_le (by simp [ids, count])
  rw [← reached, all.mem_iff, mem_ids]
  omega

end FlowAlign.FlowGraph
