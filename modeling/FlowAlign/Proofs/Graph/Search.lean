import FlowAlign.Graph.Search
import Mathlib.Data.Finset.Card
import Mathlib.Data.List.Nodup
import Mathlib.Logic.Relation

/-!
Depth-first search finds what can be reached. As long as the bound on the depth is not below the number
of vertices still to be met, a search finishes every vertex reachable from its start exactly once, and
its start last. A vertex is finished after its successors, except those from which it can be reached.
-/

namespace FlowAlign.Search

variable {ν : Type}

def Reaches (next : ν → List ν) : ν → ν → Prop :=
  Relation.ReflTransGen fun first second => second ∈ next first

/-- What a search adds to a state: `added` is finished on top of what was finished before. -/
structure Adds (next : ν → List ν) (roots : List ν) (before after : Search ν) (added : List ν) :
    Prop where
  finished_eq : after.finished = added ++ before.finished
  seen_iff : ∀ vertex, vertex ∈ after.seen ↔ vertex ∈ added ∨ vertex ∈ before.seen
  distinct : added.Nodup
  fresh : ∀ vertex ∈ added, vertex ∉ before.seen
  reached : ∀ vertex ∈ added, ∃ root ∈ roots, Reaches next root vertex
  closed : ∀ vertex ∈ added, ∀ other ∈ next vertex, other ∈ after.seen
  covered : ∀ root ∈ roots, root ∈ after.seen
  /-- An edge leads to a vertex finished earlier, closes a cycle, or leads to a vertex that was already
  met before and still open. -/
  ordered : ∀ vertex ∈ added, ∀ other ∈ next vertex, [vertex, other].Sublist after.finished ∨
    Reaches next other vertex ∨ other ∈ before.seen ∧ other ∉ before.finished

namespace Adds

variable {next : ν → List ν} {before middle after : Search ν} {roots others : List ν}
  {added more : List ν}

theorem nothing (state : Search ν) (known : ∀ root ∈ roots, root ∈ state.seen) :
    Adds next roots state state [] where
  finished_eq := rfl
  seen_iff := by simp
  distinct := List.nodup_nil
  fresh := by simp
  reached := by simp
  closed := by simp
  covered := known
  ordered := by simp

theorem seen_subset (adds : Adds next roots before after added) : before.seen ⊆ after.seen :=
  fun vertex member => (adds.seen_iff vertex).mpr (Or.inr member)

/-- A search finishes all the vertices that it meets. -/
theorem open_before (adds : Adds next roots before after added) {vertex : ν}
    (seen : vertex ∈ after.seen) (unfinished : vertex ∉ after.finished) :
    vertex ∈ before.seen ∧ vertex ∉ before.finished := by
  rw [adds.finished_eq, List.mem_append, not_or] at unfinished
  exact ⟨((adds.seen_iff vertex).mp seen).resolve_left unfinished.1, unfinished.2⟩

theorem trans (first : Adds next roots before middle added)
    (second : Adds next others middle after more) :
    Adds next (roots ++ others) before after (more ++ added) where
  finished_eq := by rw [second.finished_eq, first.finished_eq, List.append_assoc]
  seen_iff := by
    intro vertex
    rw [second.seen_iff, first.seen_iff, List.mem_append, or_assoc]
  distinct := by
    refine List.Nodup.append second.distinct first.distinct ?_
    intro vertex new old
    exact second.fresh vertex new ((first.seen_iff vertex).mpr (Or.inl old))
  fresh := by
    intro vertex member
    rcases List.mem_append.mp member with new | old
    · exact fun seen => second.fresh vertex new (first.seen_subset seen)
    · exact first.fresh vertex old
  reached := by
    intro vertex member
    rcases List.mem_append.mp member with new | old
    · obtain ⟨root, isRoot, reach⟩ := second.reached vertex new
      exact ⟨root, List.mem_append_right _ isRoot, reach⟩
    · obtain ⟨root, isRoot, reach⟩ := first.reached vertex old
      exact ⟨root, List.mem_append_left _ isRoot, reach⟩
  closed := by
    intro vertex member other follows
    rcases List.mem_append.mp member with new | old
    · exact second.closed vertex new other follows
    · exact second.seen_subset (first.closed vertex old other follows)
  covered := by
    intro root member
    rcases List.mem_append.mp member with early | late
    · exact second.seen_subset (first.covered root early)
    · exact second.covered root late
  ordered := by
    intro vertex member other follows
    rcases List.mem_append.mp member with new | old
    · rcases second.ordered vertex new other follows with earlier | back | ⟨seen, unfinished⟩
      · exact Or.inl earlier
      · exact Or.inr (Or.inl back)
      · exact Or.inr (Or.inr (first.open_before seen unfinished))
    · rcases first.ordered vertex old other follows with earlier | otherwise
      · rw [second.finished_eq]
        exact Or.inl (earlier.trans (List.sublist_append_right _ _))
      · exact Or.inr otherwise

/-- A vertex is finished after everything that is found behind it. -/
theorem finish {vertex : ν} {inner : Search ν} (fresh : vertex ∉ before.seen)
    (behind : Adds next (next vertex) { before with seen := vertex :: before.seen } inner added) :
    Adds next [vertex] before { inner with finished := vertex :: inner.finished }
      (vertex :: added) where
  finished_eq := by simp [behind.finished_eq]
  seen_iff := by
    intro other
    rw [behind.seen_iff, List.mem_cons, List.mem_cons]
    tauto
  distinct := by
    refine List.nodup_cons.mpr ⟨?_, behind.distinct⟩
    intro member
    exact behind.fresh vertex member (by simp)
  fresh := by
    intro other member
    rcases List.mem_cons.mp member with rfl | later
    · exact fresh
    · exact fun seen => behind.fresh other later (List.mem_cons_of_mem _ seen)
  reached := by
    intro other member
    refine ⟨vertex, by simp, ?_⟩
    rcases List.mem_cons.mp member with rfl | later
    · exact .refl
    · obtain ⟨root, follows, reach⟩ := behind.reached other later
      exact .head follows reach
  closed := by
    intro other member
    rcases List.mem_cons.mp member with rfl | later
    · exact behind.covered
    · exact behind.closed other later
  covered := by
    intro root member
    rw [List.mem_singleton.mp member]
    exact behind.seen_subset (by simp)
  ordered := by
    -- the vertex itself was open while the search went on behind it
    have opened : ∀ {other : ν}, other ∈ vertex :: before.seen → other ∉ before.finished →
        other = vertex ∨ other ∈ before.seen ∧ other ∉ before.finished := by
      intro other seen unfinished
      exact (List.mem_cons.mp seen).imp id fun earlier => ⟨earlier, unfinished⟩
    intro first member other follows
    rcases List.mem_cons.mp member with rfl | later
    · by_cases finished : other ∈ inner.finished
      · exact Or.inl (List.Sublist.cons_cons _ (List.singleton_sublist.mpr finished))
      · obtain ⟨seen, unfinished⟩ := behind.open_before (behind.covered other follows) finished
        rcases opened seen unfinished with rfl | earlier
        · exact Or.inr (Or.inl .refl)
        · exact Or.inr (Or.inr earlier)
    · rcases behind.ordered first later other follows with earlier | back | ⟨seen, unfinished⟩
      · exact Or.inl (List.Sublist.cons _ earlier)
      · exact Or.inr (Or.inl back)
      · rcases opened seen unfinished with rfl | earlier
        · obtain ⟨root, isNext, reach⟩ := behind.reached first later
          exact Or.inr (Or.inl (.head isNext reach))
        · exact Or.inr (Or.inr earlier)

end Adds

variable [DecidableEq ν]

/-- Number of vertices of a finite graph that a search has not met. -/
def unmet (vertices : Finset ν) (state : Search ν) : Nat :=
  (vertices \ state.seen.toFinset).card

theorem Adds.unmet_le {next : ν → List ν} {roots added : List ν} {before after : Search ν}
    (adds : Adds next roots before after added) (vertices : Finset ν) :
    unmet vertices after ≤ unmet vertices before := by
  apply Finset.card_le_card
  apply Finset.sdiff_subset_sdiff (Finset.Subset.refl _)
  intro vertex member
  exact List.mem_toFinset.mpr (adds.seen_subset (List.mem_toFinset.mp member))

theorem unmet_cons_lt {vertices : Finset ν} {state : Search ν} {vertex : ν}
    (inside : vertex ∈ vertices) (fresh : vertex ∉ state.seen) :
    unmet vertices { state with seen := vertex :: state.seen } < unmet vertices state := by
  apply Finset.card_lt_card
  rw [Finset.ssubset_iff_of_subset]
  · exact ⟨vertex, by simp [inside, fresh], by simp⟩
  · intro other member
    simp only [Finset.mem_sdiff, List.mem_toFinset, List.mem_cons, not_or] at member ⊢
    exact ⟨member.1, member.2.2⟩

section Run

variable {next : ν → List ν} {vertices : Finset ν}
  (inside : ∀ vertex ∈ vertices, ∀ other ∈ next vertex, other ∈ vertices)

include inside

theorem visit_adds : ∀ (depth : Nat) (state : Search ν) (vertex : ν), vertex ∈ vertices →
    unmet vertices state ≤ depth →
    ∃ added, Adds next [vertex] state (visit next depth state vertex) added ∧
      (vertex ∉ state.seen → added.head? = some vertex) := by
  intro depth
  induction depth with
  | zero =>
      intro state vertex isVertex enough
      have seen : vertex ∈ state.seen := by
        have none' := Finset.card_eq_zero.mp (Nat.le_zero.mp enough)
        have all := Finset.sdiff_eq_empty_iff_subset.mp none'
        exact List.mem_toFinset.mp (all isVertex)
      exact ⟨[], .nothing state (by simpa using seen), fun fresh => absurd seen fresh⟩
  | succ depth ih =>
      -- the successors are searched in turn, each from the state its predecessor left
      have turn : ∀ (roots : List ν) (state : Search ν), (∀ root ∈ roots, root ∈ vertices) →
          unmet vertices state ≤ depth →
          ∃ added, Adds next roots state (roots.foldl (visit next depth) state) added := by
        intro roots
        induction roots with
        | nil =>
            intro state _ _
            exact ⟨[], .nothing state (by simp)⟩
        | cons root rest later =>
            intro state areVertices enough
            obtain ⟨added, here, _⟩ := ih state root (areVertices root (by simp)) enough
            obtain ⟨more, there⟩ := later (visit next depth state root)
              (fun other member => areVertices other (List.mem_cons_of_mem _ member))
              (Nat.le_trans (here.unmet_le vertices) enough)
            exact ⟨more ++ added, here.trans there⟩
      intro state vertex isVertex enough
      simp only [visit]
      split
      · rename_i seen
        exact ⟨[], .nothing state (by simpa using seen), fun fresh => absurd seen fresh⟩
      · rename_i fresh
        have fewer := unmet_cons_lt isVertex fresh
        obtain ⟨added, behind⟩ := turn (next vertex) { state with seen := vertex :: state.seen }
          (inside vertex isVertex) (by omega)
        exact ⟨vertex :: added, behind.finish fresh, fun _ => rfl⟩

theorem reversePostorder_adds {bound : Nat} {start : ν} (enough : vertices.card ≤ bound)
    (isVertex : start ∈ vertices) :
    Adds next [start] { seen := [], finished := [] }
        (visit next bound { seen := [], finished := [] } start) (reversePostorder next bound start) ∧
      (reversePostorder next bound start).head? = some start := by
  obtain ⟨added, adds, head⟩ := visit_adds inside bound { seen := [], finished := [] } start isVertex
    (Nat.le_trans (Finset.card_le_card Finset.sdiff_subset) enough)
  have finished : reversePostorder next bound start = added := by
    rw [reversePostorder, adds.finished_eq, List.append_nil]
  rw [finished]
  exact ⟨adds, head (by simp)⟩

/-- A search from a start lists what can be reached from it, each vertex once and the start first. -/
theorem reversePostorder_spec {bound : Nat} {start : ν} (enough : vertices.card ≤ bound)
    (isVertex : start ∈ vertices) :
    (reversePostorder next bound start).Nodup ∧
      (reversePostorder next bound start).head? = some start ∧
      ∀ vertex, vertex ∈ reversePostorder next bound start ↔ Reaches next start vertex := by
  obtain ⟨adds, head⟩ := reversePostorder_adds inside enough isVertex
  have seen : ∀ vertex, vertex ∈ (visit next bound { seen := [], finished := [] } start).seen →
      vertex ∈ reversePostorder next bound start := by
    intro vertex member
    simpa using (adds.seen_iff vertex).mp member
  refine ⟨adds.distinct, head, ?_⟩
  intro vertex
  constructor
  · intro member
    obtain ⟨root, isRoot, reach⟩ := adds.reached vertex member
    rwa [List.mem_singleton.mp isRoot] at reach
  · intro reach
    induction reach with
    | refl => exact seen _ (adds.covered start (by simp))
    | tail _ follows earlier => exact seen _ (adds.closed _ earlier _ follows)

/-- An edge goes forward in the list unless it closes a cycle. -/
theorem reversePostorder_forward {bound : Nat} {start : ν} (enough : vertices.card ≤ bound)
    (isVertex : start ∈ vertices) {vertex other : ν}
    (member : vertex ∈ reversePostorder next bound start) (follows : other ∈ next vertex) :
    [vertex, other].Sublist (reversePostorder next bound start) ∨ Reaches next other vertex := by
  obtain ⟨adds, _⟩ := reversePostorder_adds inside enough isVertex
  rcases adds.ordered vertex member other follows with earlier | back | ⟨seen, _⟩
  · exact Or.inl earlier
  · exact Or.inr back
  · cases seen

end Run

end FlowAlign.Search
