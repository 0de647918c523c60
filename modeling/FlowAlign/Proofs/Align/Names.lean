import FlowAlign.Align.Names
import FlowAlign.Proofs.Align.Chain
import FlowAlign.Proofs.Align.Entries

/-!
Alignment by name always succeeds on well-formed graphs, and the gaps it fills in between the pairs of
namesakes make it a path through all blocks of both.
-/

namespace FlowAlign.Align

theorem deletions_path (column : Nat) : ∀ count row : Nat,
    Path row column ((List.range' row count).map Step.deletion) (row + count) column := by
  intro count
  induction count with
  | zero => intro row; exact .done
  | succ count ih =>
      intro row
      have next := ih (row + 1)
      rw [Nat.add_right_comm row 1 count] at next
      rw [List.range'_succ, List.map_cons]
      exact .deletion next

theorem insertions_path (row : Nat) : ∀ count column : Nat,
    Path row column ((List.range' column count).map Step.insertion) row (column + count) := by
  intro count
  induction count with
  | zero => intro column; exact .done
  | succ count ih =>
      intro column
      have next := ih (column + 1)
      rw [Nat.add_right_comm column 1 count] at next
      rw [List.range'_succ, List.map_cons]
      exact .insertion next

theorem gapsBetween_path {row column nextRow nextColumn : Nat} (rows : row ≤ nextRow)
    (columns : column ≤ nextColumn) :
    Path row column (gapsBetween row column nextRow nextColumn) nextRow nextColumn := by
  have deleted := deletions_path column (nextRow - row) row
  have inserted := insertions_path nextRow (nextColumn - column) column
  rw [Nat.add_sub_cancel' rows] at deleted
  rw [Nat.add_sub_cancel' columns] at inserted
  exact deleted.append inserted

/-- Pairs that grow on both sides and stay inside leave gaps that can be filled. -/
theorem fillGaps_path {height width : Nat} : ∀ (pairs : List (Nat × Nat)) (row column : Nat),
    pairs.Pairwise (fun earlier later => earlier.1 < later.1 ∧ earlier.2 < later.2) →
    (∀ pair ∈ pairs, row ≤ pair.1 ∧ column ≤ pair.2 ∧ pair.1 < height ∧ pair.2 < width) →
    row ≤ height → column ≤ width →
    Path row column (fillGaps height width row column pairs) height width := by
  intro pairs
  induction pairs with
  | nil =>
      intro row column _ _ rows columns
      exact gapsBetween_path rows columns
  | cons pair rest ih =>
      intro row column ordered inside rows columns
      obtain ⟨nextRow, nextColumn⟩ := pair
      have here := inside (nextRow, nextColumn) List.mem_cons_self
      have tail := ih (nextRow + 1) (nextColumn + 1) ordered.tail
        (by
          intro later member
          have grows := (List.pairwise_cons.mp ordered).1 later member
          have bound := inside later (List.mem_cons_of_mem _ member)
          exact ⟨grows.1, grows.2, bound.2.2⟩)
        (by omega) (by omega)
      exact (gapsBetween_path here.1 here.2.1).append (.pairing tail)

theorem namesakes_inside {primary secondary : List String} {pair : Nat × Nat}
    (member : pair ∈ namesakes primary secondary) :
    pair.1 < primary.length ∧ pair.2 < secondary.length := by
  obtain ⟨⟨label, row⟩, listed, found⟩ := List.mem_filterMap.mp member
  have rowBelow : row < primary.length := by
    have place := List.mem_zipIdx listed
    omega
  simp only at found
  split at found
  · obtain ⟨column, isColumn, rfl⟩ := Option.map_eq_some_iff.mp found
    obtain ⟨below, _⟩ := List.idxOf?_eq_some_iff.mp isColumn
    exact ⟨rowBelow, below⟩
  · simp at found

theorem namesakes_ordered (primary secondary : List String) :
    (namesakes primary secondary).Pairwise fun earlier later => earlier.1 < later.1 := by
  have rows : primary.zipIdx.Pairwise fun earlier later => earlier.2 < later.2 := by
    have positions : (primary.zipIdx.map Prod.snd).Pairwise (· < ·) := by
      rw [List.zipIdx_map_snd]
      exact List.pairwise_lt_range'
    exact List.pairwise_map.mp positions
  refine List.pairwise_filterMap.mpr (rows.imp ?_)
  rintro ⟨label, row⟩ ⟨otherLabel, otherRow⟩ below pair isPair other isOther
  simp only at isPair isOther
  split at isPair <;> split at isOther <;> simp_all
  obtain ⟨column, _, rfl⟩ := isPair
  obtain ⟨otherColumn, _, rfl⟩ := isOther
  exact below

variable {α : Type} [Quantity α]

/-- The namesakes that are similar enough to be paired. -/
def anchorsOf (options : Options α) (primary secondary : FlowGraph) : List (Nat × Nat) :=
  (namesakes primary.display.labels secondary.display.labels).filter fun pair =>
    options.isEligible (Measure.likeness (primary.blockAt pair.1).tokens
      (secondary.blockAt pair.2).tokens)

/-- The anchors on a longest chain of those that grow on both sides. -/
def chosenOf (anchors : List (Nat × Nat)) : List (Nat × Nat) :=
  (longestChain (anchors.map fun anchor => Int.ofNat anchor.2)).filterMap
    fun position => anchors[position]?

/-- Choosing among namesakes cannot fail while they are blocks. -/
theorem eligibleNamesakes_eq (options : Options α) (primary secondary : FlowGraph) :
    ∀ (pairs : List (Nat × Nat)) (measure : Measure α), measure.Sound →
      (∀ pair ∈ pairs, pair.1 < primary.size ∧ pair.2 < secondary.size) →
      ∃ after : Measure α, after.Sound ∧
        eligibleNamesakes options primary secondary measure pairs =
          .ok (after, pairs.filter fun pair => options.isEligible
            (Measure.likeness (primary.blockAt pair.1).tokens
              (secondary.blockAt pair.2).tokens)) := by
  intro pairs
  induction pairs with
  | nil =>
      intro measure sound _
      exact ⟨measure, sound, rfl⟩
  | cons pair rest ih =>
      intro measure sound inside
      obtain ⟨row, column⟩ := pair
      have here := inside (row, column) List.mem_cons_self
      obtain ⟨value, soundNext⟩ := Measure.similarity_spec sound (primary.blockAt row).tokens
        (secondary.blockAt column).tokens
      obtain ⟨after, soundAfter, found⟩ := ih _ soundNext
        fun other member => inside other (List.mem_cons_of_mem _ member)
      refine ⟨after, soundAfter, ?_⟩
      simp only [eligibleNamesakes, FlowGraph.getElem?_blockAt here.1,
        FlowGraph.getElem?_blockAt here.2, found, value, Outcome.ok_bind, Outcome.pure_eq,
        List.filter_cons]

/-- Anchors picked along a rising chain grow on both sides. -/
theorem anchors_ordered {anchors : List (Nat × Nat)} {chain : List (Int × Nat)}
    (rows : anchors.Pairwise fun earlier later => earlier.1 < later.1)
    (ordered : chain.Pairwise fun earlier later => earlier.1 < later.1 ∧ earlier.2 < later.2)
    (taken : ∀ entry ∈ chain,
      (anchors.map fun anchor => Int.ofNat anchor.2)[entry.2]? = some entry.1) :
    ((chain.map Prod.snd).filterMap fun position => anchors[position]?).Pairwise
      fun earlier later => earlier.1 < later.1 ∧ earlier.2 < later.2 := by
  rw [List.filterMap_map, List.pairwise_filterMap]
  refine ordered.imp_of_mem ?_
  intro earlier later earlierMember laterMember grows first isFirst second isSecond
  simp only [Function.comp_apply] at isFirst isSecond
  obtain ⟨firstBound, firstAnchor⟩ := List.getElem?_eq_some_iff.mp isFirst
  obtain ⟨secondBound, secondAnchor⟩ := List.getElem?_eq_some_iff.mp isSecond
  have rowsGrow := List.pairwise_iff_getElem.mp rows _ _ firstBound secondBound grows.2
  rw [firstAnchor, secondAnchor] at rowsGrow
  have firstValue := taken earlier earlierMember
  have secondValue := taken later laterMember
  rw [List.getElem?_map, isFirst, Option.map_some, Option.some.injEq] at firstValue
  rw [List.getElem?_map, isSecond, Option.map_some, Option.some.injEq] at secondValue
  have valuesGrow := grows.1
  rw [← firstValue, ← secondValue] at valuesGrow
  exact ⟨rowsGrow, Int.ofNat_lt.mp valuesGrow⟩

theorem chosenOf_subset {anchors : List (Nat × Nat)} {pair : Nat × Nat}
    (member : pair ∈ chosenOf anchors) : pair ∈ anchors := by
  obtain ⟨position, _, found⟩ := List.mem_filterMap.mp member
  exact List.mem_of_getElem? found

theorem chosenOf_ordered {anchors : List (Nat × Nat)}
    (rows : anchors.Pairwise fun earlier later => earlier.1 < later.1) :
    (chosenOf anchors).Pairwise
      fun earlier later => earlier.1 < later.1 ∧ earlier.2 < later.2 := by
  obtain ⟨chain, isChain, ordered, taken⟩ :=
    longestChain_rising (anchors.map fun anchor => Int.ofNat anchor.2)
  rw [chosenOf, isChain]
  exact anchors_ordered rows ordered taken

section

variable (options : Options α) {primary secondary : FlowGraph} (primaryFormed : primary.WellFormed)
  (secondaryFormed : secondary.WellFormed)

theorem anchorsOf_ordered (primary secondary : FlowGraph) :
    (anchorsOf options primary secondary).Pairwise fun earlier later => earlier.1 < later.1 :=
  (namesakes_ordered _ _).sublist List.filter_sublist

include primaryFormed secondaryFormed

theorem namesakes_blocks {pair : Nat × Nat}
    (member : pair ∈ namesakes primary.display.labels secondary.display.labels) :
    pair.1 < primary.size ∧ pair.2 < secondary.size := by
  rw [← primaryFormed.labelled, ← secondaryFormed.labelled]
  exact namesakes_inside member

theorem nameAlignment_eq {measure : Measure α} (sound : measure.Sound) :
    ∃ after : Measure α, after.Sound ∧
      nameAlignment options measure primary secondary = .ok (after,
        fillGaps primary.size secondary.size 0 0
          (chosenOf (anchorsOf options primary secondary))) := by
  obtain ⟨after, soundAfter, found⟩ := eligibleNamesakes_eq options primary secondary _ measure sound
    fun _ => namesakes_blocks primaryFormed secondaryFormed
  refine ⟨after, soundAfter, ?_⟩
  simp only [nameAlignment, found, Outcome.ok_bind, Outcome.pure_eq, chosenOf, anchorsOf]

theorem nameAlignment_path {measure : Measure α} (sound : measure.Sound) :
    ∃ (after : Measure α) (steps : List Step),
      nameAlignment options measure primary secondary = .ok (after, steps) ∧ after.Sound ∧
      Path 0 0 steps primary.size secondary.size := by
  obtain ⟨after, soundAfter, named⟩ :=
    nameAlignment_eq options primaryFormed secondaryFormed sound
  refine ⟨after, _, named, soundAfter, ?_⟩
  apply fillGaps_path
  · exact chosenOf_ordered (anchorsOf_ordered options primary secondary)
  · intro pair member
    have bound := namesakes_blocks primaryFormed secondaryFormed
      (List.mem_of_mem_filter (chosenOf_subset member))
    exact ⟨Nat.zero_le _, Nat.zero_le _, bound⟩
  · exact Nat.zero_le _
  · exact Nat.zero_le _

end

end FlowAlign.Align
