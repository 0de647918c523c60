import FlowAlign.Proofs.Align.Adjusted
import Mathlib.Data.List.NodupEquivFin

/-!
Alignment by name pairs as many blocks as it can. Blocks may be paired by name if they carry a label
that occurs once on either side and are similar enough, and no more of them can be put in the order of
both graphs than an alignment has pairs.
-/

namespace FlowAlign.Align

section Labels

theorem place_unique_of_count {labels : List String} {label : String}
    (once : labels.count label = 1) {first second : Nat} (isFirst : labels[first]? = some label)
    (isSecond : labels[second]? = some label) : first = second := by
  obtain ⟨firstInside, firstLabel⟩ := List.getElem?_eq_some_iff.mp isFirst
  obtain ⟨secondInside, secondLabel⟩ := List.getElem?_eq_some_iff.mp isSecond
  have single : ¬labels.Duplicate label := by
    rw [List.duplicate_iff_two_le_count]
    omega
  have apart : ∀ {lower higher : Nat} (below : lower < higher) (inside : higher < labels.length),
      labels.get ⟨lower, by omega⟩ = label → labels.get ⟨higher, inside⟩ = label → False := by
    intro lower higher below inside isLower isHigher
    exact single (List.duplicate_iff_exists_distinct_get.mpr
      ⟨⟨lower, by omega⟩, ⟨higher, inside⟩, below, isLower.symm, isHigher.symm⟩)
  rcases Nat.lt_trichotomy first second with below | same | above
  · exact (apart below secondInside firstLabel secondLabel).elim
  · exact same
  · exact (apart above firstInside secondLabel firstLabel).elim

theorem idxOf?_of_count {labels : List String} {label : String} (once : labels.count label = 1)
    {position : Nat} : labels.idxOf? label = some position ↔ labels[position]? = some label := by
  constructor
  · intro found
    obtain ⟨inside, isLabel, _⟩ := List.idxOf?_eq_some_iff.mp found
    rw [List.getElem?_eq_getElem inside, isLabel]
  · intro isLabel
    cases found : labels.idxOf? label with
    | none =>
        rw [List.idxOf?_eq_none_iff] at found
        exact (found (List.mem_of_getElem? isLabel)).elim
    | some other =>
        obtain ⟨inside, otherLabel, _⟩ := List.idxOf?_eq_some_iff.mp found
        rw [place_unique_of_count once isLabel
          ((List.getElem?_eq_getElem inside).trans (congrArg some otherLabel))]

/-- Namesakes are all positions that share a label found once on either side. -/
theorem mem_namesakes {primary secondary : List String} {pair : Nat × Nat} :
    pair ∈ namesakes primary secondary ↔ ∃ label, primary[pair.1]? = some label ∧
      secondary[pair.2]? = some label ∧ primary.count label = 1 ∧ secondary.count label = 1 := by
  obtain ⟨row, column⟩ := pair
  simp only [namesakes, List.mem_filterMap, Prod.exists, List.mk_mem_zipIdx_iff_getElem?]
  constructor
  · rintro ⟨label, position, isLabel, found⟩
    split at found
    · rename_i once
      simp only [Bool.and_eq_true, decide_eq_true_eq] at once
      simp only [Option.map_eq_some_iff, Prod.mk.injEq] at found
      obtain ⟨other, isOther, rfl, rfl⟩ := found
      exact ⟨label, isLabel, (idxOf?_of_count once.2).mp isOther, once⟩
    · cases found
  · rintro ⟨label, isRow, isColumn, once, once'⟩
    refine ⟨label, row, isRow, ?_⟩
    simp [once, once', (idxOf?_of_count once').mpr isColumn]

end Labels

section Chosen

theorem length_chosenOf {anchors : List (Nat × Nat)} :
    (chosenOf anchors).length = (longestChain (anchors.map fun anchor => Int.ofNat anchor.2)).length := by
  obtain ⟨chain, isChain, _, taken⟩ :=
    longestChain_rising (anchors.map fun anchor => Int.ofNat anchor.2)
  rw [chosenOf, List.length_filterMap_eq_countP, List.countP_eq_length]
  intro position member
  rw [isChain] at member
  obtain ⟨entry, isEntry, rfl⟩ := List.mem_map.mp member
  have found := taken entry isEntry
  rw [List.getElem?_map, Option.map_eq_some_iff] at found
  obtain ⟨anchor, isAnchor, _⟩ := found
  rw [isAnchor, Option.isSome_some]

/-- No more anchors grow on both sides than are chosen. -/
theorem chosenOf_longest {anchors others : List (Nat × Nat)}
    (rows : anchors.Pairwise fun earlier later => earlier.1 < later.1)
    (ordered : others.Pairwise fun earlier later => earlier.1 < later.1 ∧ earlier.2 < later.2)
    (subset : ∀ pair ∈ others, pair ∈ anchors) : others.length ≤ (chosenOf anchors).length := by
  obtain ⟨chain, isChain, _, longest⟩ :=
    longestChain_spec (anchors.map fun anchor => Int.ofNat anchor.2)
  -- the others stand among the anchors, and the places where they do make a rising chain
  let placed : Chain := (others.map fun pair => (Int.ofNat pair.2, anchors.idxOf pair)).reverse
  have rising : Rising (anchors.map fun anchor => Int.ofNat anchor.2)
      (anchors.map fun anchor => Int.ofNat anchor.2).length placed := by
    constructor
    · rw [List.pairwise_reverse, List.pairwise_map]
      refine ordered.imp_of_mem ?_
      intro earlier later isEarlier isLater grows
      refine ⟨Int.ofNat_lt.mpr grows.2, Nat.lt_of_not_le ?_⟩
      intro behind
      have laterInside := List.idxOf_lt_length_of_mem (subset later isLater)
      have earlierInside := List.idxOf_lt_length_of_mem (subset earlier isEarlier)
      rcases Nat.lt_or_eq_of_le behind with below | same
      · have step := List.pairwise_iff_getElem.mp rows _ _ laterInside earlierInside below
        rw [List.getElem_idxOf, List.getElem_idxOf] at step
        omega
      · rw [List.idxOf_inj (subset later isLater)] at same
        rw [same] at grows
        exact Nat.lt_irrefl _ grows.1
    · intro entry member
      rw [List.mem_reverse, List.mem_map] at member
      obtain ⟨pair, isPair, rfl⟩ := member
      have inside := List.idxOf_lt_length_of_mem (subset pair isPair)
      rw [List.length_map, List.getElem?_map, List.getElem?_eq_getElem inside, List.getElem_idxOf]
      exact ⟨rfl, inside⟩
  have atMost := (longest placed rising).1
  rw [length_chosenOf, isChain, List.length_reverse, List.length_map]
  rwa [List.length_reverse, List.length_map] at atMost

theorem pairsOf_fillGaps {height width : Nat} : ∀ (pairs : List (Nat × Nat)) (row column : Nat),
    pairsOf (fillGaps height width row column pairs) = pairs := by
  have gaps : ∀ row column nextRow nextColumn,
      pairsOf (gapsBetween row column nextRow nextColumn) = [] := by
    intro row column nextRow nextColumn
    simp [pairsOf, gapsBetween, Step.pair?, List.filterMap_map, Function.comp_def]
  intro pairs
  induction pairs with
  | nil => exact fun row column => gaps row column height width
  | cons pair rest ih =>
      intro row column
      obtain ⟨nextRow, nextColumn⟩ := pair
      have front := gaps row column nextRow nextColumn
      have behind := ih (nextRow + 1) (nextColumn + 1)
      rw [pairsOf] at front behind
      rw [fillGaps, pairsOf, List.filterMap_append, front, List.nil_append, List.filterMap_cons,
        behind]
      rfl

end Chosen

variable {α : Type} [Quantity α]

/-- Blocks that may be paired by name: they share a label that occurs once on either side, and are
similar enough. -/
structure Candidate (options : Options α) (primary secondary : FlowGraph) (pair : Nat × Nat) :
    Prop where
  label : ∃ label, primary.display.labels[pair.1]? = some label ∧
    secondary.display.labels[pair.2]? = some label ∧
    primary.display.labels.count label = 1 ∧ secondary.display.labels.count label = 1
  eligible : ∃ first second, primary.blocks[pair.1]? = some first ∧
    secondary.blocks[pair.2]? = some second ∧
    options.isEligible (Measure.empty.similarity first.tokens second.tokens).2 = true

/-- Candidates that can be listed in the order of both graphs. -/
structure Uncrossed (options : Options α) (primary secondary : FlowGraph)
    (pairs : List (Nat × Nat)) : Prop where
  candidates : ∀ pair ∈ pairs, Candidate options primary secondary pair
  ordered : pairs.Pairwise fun earlier later => earlier.1 < later.1 ∧ earlier.2 < later.2

section

variable (options : Options α) {primary secondary : FlowGraph}

theorem countP_paired (steps : List Step) :
    (alignmentOf options primary secondary steps).entries.countP (fun entry => !entry.isGap) =
      (pairsOf steps).length := by
  rw [pairsOf, List.length_filterMap_eq_countP, alignmentOf, List.countP_map]
  apply List.countP_congr
  intro step _
  cases step with
  | insertion column => simp [entryOf, Entry.isGap, Step.pair?]
  | deletion row => simp [entryOf, Entry.isGap, Step.pair?]
  | pairing row column => simp [entryOf, Entry.isGap, Step.pair?]

variable (primaryFormed : primary.WellFormed) (secondaryFormed : secondary.WellFormed)

include primaryFormed secondaryFormed

theorem mem_anchorsOf {pair : Nat × Nat} :
    pair ∈ anchorsOf options primary secondary ↔ Candidate options primary secondary pair := by
  have likeness := (Measure.similarity_spec (Measure.sound_empty (α := α))
    (primary.blockAt pair.1).tokens (secondary.blockAt pair.2).tokens).1
  rw [anchorsOf, List.mem_filter]
  constructor
  · rintro ⟨named, eligible⟩
    have inside := namesakes_blocks primaryFormed secondaryFormed named
    refine ⟨mem_namesakes.mp named, _, _, FlowGraph.getElem?_blockAt inside.1,
      FlowGraph.getElem?_blockAt inside.2, ?_⟩
    rwa [likeness]
  · rintro ⟨label, first, second, isFirst, isSecond, eligible⟩
    refine ⟨mem_namesakes.mpr label, ?_⟩
    rw [FlowGraph.getElem?_blockAt (List.getElem?_eq_some_iff.mp isFirst).1,
      Option.some.injEq] at isFirst
    rw [FlowGraph.getElem?_blockAt (List.getElem?_eq_some_iff.mp isSecond).1,
      Option.some.injEq] at isSecond
    rwa [← likeness, isFirst, isSecond]

theorem chosenOf_anchorsOf :
    Uncrossed options primary secondary (chosenOf (anchorsOf options primary secondary)) ∧
      ∀ others, Uncrossed options primary secondary others →
        others.length ≤ (chosenOf (anchorsOf options primary secondary)).length := by
  have candidates : ∀ {pair : Nat × Nat}, pair ∈ anchorsOf options primary secondary ↔
      Candidate options primary secondary pair :=
    mem_anchorsOf options primaryFormed secondaryFormed
  have rows := anchorsOf_ordered options primary secondary
  constructor
  · exact ⟨fun pair member => candidates.mp (chosenOf_subset member), chosenOf_ordered rows⟩
  · intro others uncrossed
    exact chosenOf_longest rows uncrossed.ordered
      fun pair member => candidates.mpr (uncrossed.candidates pair member)

theorem compute_by_name {matcher : Matcher α} (ready : Ready matcher options primary secondary)
    (degraded : isDegraded options primary secondary = true) :
    (compute matcher).result = .ok (alignmentOf options primary secondary
      (fillGaps primary.size secondary.size 0 0
        (chosenOf (anchorsOf options primary secondary)))) := by
  obtain ⟨after, steps, named, _, result⟩ :=
    computeByName_path options primaryFormed secondaryFormed ready
  obtain ⟨last, _, found⟩ := nameAlignment_eq options primaryFormed secondaryFormed ready.sound
  rw [named, Except.ok.injEq, Prod.mk.injEq] at found
  rw [found.2] at result
  simpa [compute, ready.costs_eq, degraded] using result

end

/-- When one of two checked graphs has too many blocks, they are aligned whatever the options and the
arithmetic. All pairs of the alignment are candidates, and they are as many as there are in any
selection of candidates that can be listed in the order of both graphs. -/
theorem compute_pairs_most (options : Options α) (primary secondary : FlowGraph)
    (primaryChecked : primary.check = .ok ()) (secondaryChecked : secondary.check = .ok ())
    (large : options.maxBlocks < primary.size ∨ options.maxBlocks < secondary.size) :
    ∃ matcher alignment, (process options primary secondary).outcome = .ok matcher ∧
      (compute matcher).result = .ok alignment ∧
      (align options primary secondary).outcome = .ok alignment ∧
      (∀ entry ∈ alignment.entries, ∀ row column : Int,
        entry.primary = some row → entry.secondary = some column →
        ∃ pair : Nat × Nat, row = pair.1 ∧ column = pair.2 ∧
          Candidate options primary secondary pair) ∧
      IsGreatest {size | ∃ pairs, Uncrossed options primary secondary pairs ∧ pairs.length = size}
        (alignment.entries.countP fun entry => !entry.isGap) := by
  have primaryFormed := FlowGraph.check_wellFormed primaryChecked
  have secondaryFormed := FlowGraph.check_wellFormed secondaryChecked
  have degraded : isDegraded options primary secondary = true := by
    simp only [isDegraded, decide_eq_true_eq]
    omega
  obtain ⟨matcher, processed, ready⟩ := process_ready options secondary primaryFormed.nonempty
  obtain ⟨uncrossed, longest⟩ := chosenOf_anchorsOf options primaryFormed secondaryFormed
  have result := compute_by_name options primaryFormed secondaryFormed ready degraded
  refine ⟨matcher, _, processed, result, (align_of_process options processed).trans result, ?_, ?_⟩
  · intro entry member row column isRow isColumn
    obtain ⟨step, isStep, rfl⟩ := List.mem_map.mp member
    cases step with
    | insertion position => simp [entryOf] at isRow
    | deletion position => simp [entryOf] at isColumn
    | pairing position counterpart =>
        have chosen := pairing_mem_fillGaps _ 0 0 isStep
        refine ⟨(position, counterpart), ?_, ?_, uncrossed.candidates _ chosen⟩
        · simpa [entryOf] using isRow.symm
        · simpa [entryOf] using isColumn.symm
  · rw [countP_paired, pairsOf_fillGaps]
    refine ⟨⟨_, uncrossed, rfl⟩, ?_⟩
    rintro size ⟨others, others_uncrossed, rfl⟩
    exact longest others others_uncrossed

def exchangedLoop : FlowGraph :=
  { loopGraph with
    name := "exchanged"
    display := { labels := ["tail", "head"], texts := [], addresses := [] } }

/-- Both labels could be paired, but not both in order. -/
theorem compute_pairs_most_exchanged :
    let options : Options Rat := { Options.standard with maxBlocks := 1, modifyThreshold := 0 }
    loopGraph.check = .ok () ∧ exchangedLoop.check = .ok () ∧
    Candidate options loopGraph exchangedLoop (0, 1) ∧
    Candidate options loopGraph exchangedLoop (1, 0) ∧
    ∃ matcher alignment, (process options loopGraph exchangedLoop).outcome = .ok matcher ∧
      (compute matcher).result = .ok alignment ∧
      (align options loopGraph exchangedLoop).outcome = .ok alignment ∧
      (∀ entry ∈ alignment.entries, ∀ row column : Int,
        entry.primary = some row → entry.secondary = some column →
        ∃ pair : Nat × Nat, row = pair.1 ∧ column = pair.2 ∧
          Candidate options loopGraph exchangedLoop pair) ∧
      IsGreatest {size | ∃ pairs, Uncrossed options loopGraph exchangedLoop pairs ∧
        pairs.length = size} (alignment.entries.countP fun entry => !entry.isGap) := by
  have loopChecked : loopGraph.check = .ok () := by rfl
  have exchangedChecked : exchangedLoop.check = .ok () := by rfl
  refine ⟨loopChecked, exchangedChecked, ?_, ?_, compute_pairs_most _ loopGraph exchangedLoop
    loopChecked exchangedChecked (by decide)⟩
  · exact ⟨⟨"head", by decide⟩, _, _, rfl, rfl, by with_unfolding_all decide⟩
  · exact ⟨⟨"tail", by decide⟩, _, _, rfl, rfl, by with_unfolding_all decide⟩

end FlowAlign.Align
