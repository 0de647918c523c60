import FlowAlign.Proofs.Graph.Search

/-!
Depth-first search under other names. When the successors of a vertex carry over in their order, so does
the whole search, whatever else the two graphs hold and however deep the two searches may go.
-/

namespace FlowAlign.Search

variable {ν μ : Type}

def relabel (label : ν → μ) (state : Search ν) : Search μ :=
  { seen := state.seen.map label, finished := state.finished.map label }

section Inside

variable {next : ν → List ν} {vertices : Finset ν}
  (inside : ∀ vertex ∈ vertices, ∀ other ∈ next vertex, other ∈ vertices)

include inside

theorem reaches_mem {first second : ν} (isVertex : first ∈ vertices)
    (reaches : Reaches next first second) : second ∈ vertices := by
  induction reaches with
  | refl => exact isVertex
  | tail _ follows earlier => exact inside _ earlier _ follows

theorem Adds.seen_mem {roots added : List ν} {before after : Search ν}
    (adds : Adds next roots before after added) (areVertices : ∀ root ∈ roots, root ∈ vertices)
    (known : ∀ vertex ∈ before.seen, vertex ∈ vertices) :
    ∀ vertex ∈ after.seen, vertex ∈ vertices := by
  intro vertex member
  rcases (adds.seen_iff vertex).mp member with new | old
  · obtain ⟨root, isRoot, reaches⟩ := adds.reached vertex new
    exact reaches_mem inside (areVertices root isRoot) reaches
  · exact known vertex old

end Inside

variable [DecidableEq ν] [DecidableEq μ]

theorem visit_of_seen (next : ν → List ν) (depth : Nat) {state : Search ν} {vertex : ν}
    (seen : vertex ∈ state.seen) : visit next depth state vertex = state := by
  cases depth with
  | zero => rfl
  | succ depth => simp [visit, seen]

variable {next : ν → List ν} {next' : μ → List μ} {vertices : Finset ν} {label : ν → μ}

theorem unmet_pos {state : Search ν} {vertex : ν} (isVertex : vertex ∈ vertices)
    (fresh : vertex ∉ state.seen) : 0 < unmet vertices state := by
  have fewer := unmet_cons_lt isVertex fresh
  omega

section Run

variable (inside : ∀ vertex ∈ vertices, ∀ other ∈ next vertex, other ∈ vertices)
  (apart : ∀ first ∈ vertices, ∀ second ∈ vertices, label first = label second → first = second)
  (follow : ∀ vertex ∈ vertices, next' (label vertex) = (next vertex).map label)

include inside in
theorem foldl_visit_relabel {depth depth' : Nat}
    (each : ∀ (state : Search ν) (vertex : ν), vertex ∈ vertices →
      (∀ other ∈ state.seen, other ∈ vertices) → unmet vertices state ≤ depth →
      unmet vertices state ≤ depth' →
      visit next' depth' (state.relabel label) (label vertex) =
        (visit next depth state vertex).relabel label) :
    ∀ (roots : List ν) (state : Search ν), (∀ root ∈ roots, root ∈ vertices) →
      (∀ other ∈ state.seen, other ∈ vertices) → unmet vertices state ≤ depth →
      unmet vertices state ≤ depth' →
      (roots.map label).foldl (visit next' depth') (state.relabel label) =
        (roots.foldl (visit next depth) state).relabel label := by
  intro roots
  induction roots with
  | nil =>
      intro state _ _ _ _
      rfl
  | cons root rest ih =>
      intro state areVertices known enough enough'
      have isRoot := areVertices root List.mem_cons_self
      obtain ⟨added, adds, _⟩ := visit_adds inside depth state root isRoot enough
      -- what is seen stays inside, and there is no more to be met than before
      have less := adds.unmet_le vertices
      rw [List.map_cons, List.foldl_cons, List.foldl_cons, each state root isRoot known enough enough']
      refine ih _ (fun other member => areVertices other (List.mem_cons_of_mem _ member)) ?_
        (by omega) (by omega)
      exact adds.seen_mem inside (by simpa using isRoot) known

include inside apart follow

theorem visit_relabel : ∀ (depth depth' : Nat) (state : Search ν) (vertex : ν),
    vertex ∈ vertices → (∀ other ∈ state.seen, other ∈ vertices) →
    unmet vertices state ≤ depth → unmet vertices state ≤ depth' →
    visit next' depth' (state.relabel label) (label vertex) =
      (visit next depth state vertex).relabel label := by
  intro depth
  induction depth with
  | zero =>
      intro depth' state vertex isVertex _ enough _
      have seen : vertex ∈ state.seen := by
        by_contra fresh
        have positive := unmet_pos isVertex fresh
        omega
      rw [visit_of_seen next' depth' (List.mem_map_of_mem seen), visit_of_seen next 0 seen]
  | succ depth ih =>
      intro depth' state vertex isVertex known enough enough'
      by_cases seen : vertex ∈ state.seen
      · rw [visit_of_seen next' depth' (List.mem_map_of_mem seen), visit_of_seen next _ seen]
      · have fresh : label vertex ∉ state.seen.map label := by
          intro member
          obtain ⟨other, isSeen, same⟩ := List.mem_map.mp member
          exact seen (apart other (known other isSeen) vertex isVertex same ▸ isSeen)
        have fewer := unmet_cons_lt isVertex seen
        obtain ⟨depth', rfl⟩ : ∃ less, depth' = less + 1 := ⟨depth' - 1, by omega⟩
        have behind := foldl_visit_relabel inside (ih depth') (next vertex)
          { state with seen := vertex :: state.seen } (inside vertex isVertex)
          (by simpa using ⟨isVertex, known⟩) (by omega) (by omega)
        rw [← follow vertex isVertex] at behind
        simp only [relabel, List.map_cons] at behind
        simp only [visit, relabel, fresh, seen, if_false, behind, List.map_cons]

theorem reversePostorder_relabel {bound bound' : Nat} {start : ν} (isVertex : start ∈ vertices)
    (enough : vertices.card ≤ bound) (enough' : vertices.card ≤ bound') :
    reversePostorder next' bound' (label start) =
      (reversePostorder next bound start).map label := by
  have unmet_le : unmet vertices { seen := [], finished := [] } ≤ vertices.card :=
    Finset.card_le_card Finset.sdiff_subset
  have run := visit_relabel inside apart follow bound bound' { seen := [], finished := [] } start
    isVertex (by simp) (by omega) (by omega)
  exact congrArg Search.finished run

end Run

end FlowAlign.Search
