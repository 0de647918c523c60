import FlowAlign.Measure
import FlowAlign.Proofs.Distinct
import Mathlib.Data.List.Forall2

/-!
The similarity of token sequences without its memory. Numbers given to tokens and results kept from
earlier comparisons never show: every similarity is the likeness of the two sequences of keys.
-/

namespace FlowAlign

namespace Edit

variable {β γ : Type}

variable [DecidableEq β] [DecidableEq γ]

theorem fromAbove_map {label : β → γ} (symbol : β) : ∀ (others : List β) (row : List Int),
    Separates label (symbol :: others) →
    fromAbove (label symbol) (others.map label) row = fromAbove symbol others row := by
  intro others
  induction others with
  | nil =>
      intro row _
      cases row <;> rfl
  | cons other others ih =>
      intro row apart
      have same : label other = label symbol ↔ other = symbol :=
        ⟨apart other (by simp) symbol (by simp), fun equal => equal ▸ rfl⟩
      have fewer : Separates label (symbol :: others) :=
        apart.of_subset (List.cons_subset_cons _ (List.subset_cons_self _ _))
      match row with
      | [] => rfl
      | [_] => rfl
      | diagonal :: above :: row => simp only [List.map_cons, fromAbove, same, ih _ fewer]

theorem rowsFrom_map {label : β → γ} (secondary : List β) :
    ∀ (primary : List β) (index : Nat) (row : List Int), Separates label (primary ++ secondary) →
      rowsFrom (secondary.map label) index row (primary.map label) =
        rowsFrom secondary index row primary := by
  intro primary
  induction primary with
  | nil => intros; rfl
  | cons symbol rest ih =>
      intro index row apart
      have tail : Separates label (rest ++ secondary) := apart.of_subset (List.subset_cons_self _ _)
      have front : Separates label (symbol :: secondary) :=
        apart.of_subset (List.cons_subset_cons _ (List.subset_append_right _ _))
      simp only [List.map_cons, rowsFrom, nextRow, fromAbove_map symbol secondary _ front,
        List.length_map, ih _ _ tail]

/-- The distance depends on which symbols are equal, not on how they are labelled. -/
theorem distance_map {label : β → γ} {primary secondary : List β}
    (apart : Separates label (primary ++ secondary)) :
    distance (primary.map label) (secondary.map label) = distance primary secondary := by
  simp only [distance, rows, List.length_map, List.isEmpty_map, rowsFrom_map _ _ _ _ apart]

end Edit

namespace Measure

variable {α : Type} [Quantity α]

/-- Similarity of two token sequences by their keys alone. -/
def likeness (primary secondary : List Token) : α :=
  let first := primary.map Token.key
  let second := secondary.map Token.key
  let longest := max first.length second.length
  if longest = 0 ∨ first = second then Quantity.whole 1
  else Quantity.whole 1 - Quantity.whole (Edit.distance first second) / Quantity.whole longest

theorem likeness_congr {primary secondary primary' secondary' : List Token}
    (first : primary.map Token.key = primary'.map Token.key)
    (second : secondary.map Token.key = secondary'.map Token.key) :
    likeness (α := α) primary secondary = likeness primary' secondary' := by
  simp only [likeness, first, second]

structure Coded (book : List Token.Key) (tokens : List Token) (codes : List Nat) : Prop where
  entered : ∀ token ∈ tokens, token.key ∈ book
  codes_eq : codes = (tokens.map Token.key).map book.idxOf

theorem Coded.extend {book longer : List Token.Key} {tokens : List Token} {codes : List Nat}
    (coded : Coded book tokens codes) (extends' : book <+: longer) : Coded longer tokens codes := by
  obtain ⟨more, rfl⟩ := extends'
  refine ⟨fun token member => List.mem_append_left _ (coded.entered token member), ?_⟩
  rw [coded.codes_eq, List.map_map, List.map_map]
  apply List.map_congr_left
  intro token member
  exact (List.idxOf_append_of_mem (coded.entered token member)).symm

theorem number_spec (book : List Token.Key) (key : Token.Key) :
    book <+: (number book key).1 ∧ key ∈ (number book key).1 ∧
      (number book key).2 = (number book key).1.idxOf key := by
  unfold number
  split
  · rename_i code found
    obtain ⟨below, place⟩ := List.findIdx?_eq_some_iff_findIdx_eq.mp found
    refine ⟨List.prefix_refl _, ?_, place.symm⟩
    exact List.idxOf_lt_length_iff.mp (by rwa [List.idxOf, place])
  · rename_i missing
    rw [List.idxOf?_eq_none_iff] at missing
    refine ⟨List.prefix_append _ _, by simp, ?_⟩
    simp [List.idxOf_append_of_notMem missing]

theorem numberAll_spec (tokens : List Token) : ∀ book : List Token.Key,
    book <+: (numberAll book tokens).1 ∧
      Coded (numberAll book tokens).1 tokens (numberAll book tokens).2 := by
  induction tokens with
  | nil =>
      intro book
      exact ⟨List.prefix_refl _, ⟨by simp, rfl⟩⟩
  | cons token rest ih =>
      intro book
      obtain ⟨grows, entered, place⟩ := number_spec book token.key
      obtain ⟨growsOn, coded⟩ := ih (number book token.key).1
      simp only [numberAll]
      refine ⟨grows.trans growsOn, ⟨?_, ?_⟩⟩
      · intro other member
        rcases List.mem_cons.mp member with rfl | later
        · exact growsOn.subset entered
        · exact coded.entered other later
      · obtain ⟨more, longer⟩ := growsOn
        simp only [List.map_cons, ← coded.codes_eq, place]
        rw [← longer, List.idxOf_append_of_mem entered]

/-- Codes in one book tell the keys apart, so that they may stand for them. -/
theorem ratio_codes {book : List Token.Key} {primary secondary : List Token}
    {first second : List Nat} (firstCoded : Coded book primary first)
    (secondCoded : Coded book secondary second) :
    ratio first second = (likeness primary secondary : α) := by
  have apart : Separates book.idxOf
      (primary.map Token.key ++ secondary.map Token.key) := by
    intro key member other _ equal
    have entered : key ∈ book := by
      rcases List.mem_append.mp member with inFirst | inSecond
      · obtain ⟨token, isToken, rfl⟩ := List.mem_map.mp inFirst
        exact firstCoded.entered token isToken
      · obtain ⟨token, isToken, rfl⟩ := List.mem_map.mp inSecond
        exact secondCoded.entered token isToken
    exact (List.idxOf_inj entered).mp equal
  have equal : (primary.map Token.key).map book.idxOf = (secondary.map Token.key).map book.idxOf ↔
      primary.map Token.key = secondary.map Token.key :=
    ⟨apart.map_inj, fun same => by rw [same]⟩
  simp only [ratio, likeness, firstCoded.codes_eq, secondCoded.codes_eq, List.length_map, equal,
    Edit.distance_map apart]

/-- A measure whose known results are the right ones. -/
def Sound (measure : Measure α) : Prop :=
  ∀ primary secondary value, measure.known[pairKey primary secondary]? = some value →
    value = ratio primary secondary

theorem sound_empty : (empty : Measure α).Sound := by
  intro primary secondary value found
  simp [empty] at found

/-- New codes leave what is known as it is. -/
theorem Sound.of_known {measure other : Measure α} (sound : measure.Sound)
    (known : other.known = measure.known) : other.Sound := by
  intro primary secondary value found
  rw [known] at found
  exact sound primary secondary value found

theorem pairKey_inj {primary secondary primary' secondary' : List Nat}
    (equal : pairKey primary secondary = pairKey primary' secondary') :
    primary = primary' ∧ secondary = secondary' := by
  simp only [pairKey, List.cons.injEq] at equal
  exact List.append_inj equal.2 equal.1

theorem compare_spec {measure : Measure α} (sound : measure.Sound) (primary secondary : List Nat) :
    (measure.compare primary secondary).2 = ratio primary secondary ∧
      (measure.compare primary secondary).1.Sound := by
  cases known : measure.known[pairKey primary secondary]? with
  | some value =>
      simp only [compare, known]
      exact ⟨sound _ _ _ known, sound⟩
  | none =>
      simp only [compare, known]
      refine ⟨trivial, ?_⟩
      intro otherPrimary otherSecondary value found
      rw [Std.TreeMap.getElem?_insert] at found
      split at found
      · rename_i same
        obtain ⟨rfl, rfl⟩ := pairKey_inj (Std.LawfulEqCmp.eq_of_compare same)
        exact (Option.some.inj found).symm
      · exact sound _ _ _ found

theorem encode_spec {α : Type} (measure : Measure α) (tokens : List Token) :
    measure.book <+: (measure.encode tokens).1.book ∧
      (measure.encode tokens).1.known = measure.known ∧
      Coded (measure.encode tokens).1.book tokens (measure.encode tokens).2 :=
  ⟨(numberAll_spec tokens measure.book).1, rfl, (numberAll_spec tokens measure.book).2⟩

theorem similarity_spec {measure : Measure α} (sound : measure.Sound)
    (primary secondary : List Token) :
    (measure.similarity primary secondary).2 = likeness primary secondary ∧
      (measure.similarity primary secondary).1.Sound := by
  obtain ⟨_, firstKnown, firstCoded⟩ := encode_spec measure primary
  obtain ⟨grows, secondKnown, secondCoded⟩ := encode_spec (measure.encode primary).1 secondary
  have stillSound := sound.of_known (secondKnown.trans firstKnown)
  obtain ⟨value, soundAfter⟩ := compare_spec stillSound (measure.encode primary).2
    ((measure.encode primary).1.encode secondary).2
  refine ⟨?_, soundAfter⟩
  simp only [similarity]
  rw [value, ratio_codes (firstCoded.extend grows) secondCoded]

theorem encodeAll_spec {α : Type} (sequences : List (List Token)) : ∀ measure : Measure α,
    measure.book <+: (measure.encodeAll sequences).1.book ∧
      (measure.encodeAll sequences).1.known = measure.known ∧
      List.Forall₂ (Coded (measure.encodeAll sequences).1.book) sequences
        (measure.encodeAll sequences).2 := by
  induction sequences with
  | nil =>
      intro measure
      exact ⟨List.prefix_refl _, rfl, .nil⟩
  | cons tokens rest ih =>
      intro measure
      obtain ⟨grows, known, coded⟩ := encode_spec measure tokens
      obtain ⟨growsOn, knownOn, codedOn⟩ := ih (measure.encode tokens).1
      simp only [encodeAll]
      exact ⟨grows.trans growsOn, knownOn.trans known, .cons (coded.extend growsOn) codedOn⟩

theorem compareRow_spec (primary : List Nat) (others : List (List Nat)) :
    ∀ {measure : Measure α}, measure.Sound →
      (measure.compareRow primary others).2 = others.map (ratio primary) ∧
        (measure.compareRow primary others).1.Sound := by
  induction others with
  | nil =>
      intro measure sound
      exact ⟨rfl, sound⟩
  | cons secondary rest ih =>
      intro measure sound
      obtain ⟨value, soundAfter⟩ := compare_spec sound primary secondary
      obtain ⟨values, soundAtEnd⟩ := ih soundAfter
      simp only [compareRow, value, values, List.map_cons]
      exact ⟨trivial, soundAtEnd⟩

theorem compareRows_spec (secondary : List (List Nat)) (primaries : List (List Nat)) :
    ∀ {measure : Measure α}, measure.Sound →
      (measure.compareRows secondary primaries).2 =
          primaries.map (fun primary => secondary.map (ratio primary)) ∧
        (measure.compareRows secondary primaries).1.Sound := by
  induction primaries with
  | nil =>
      intro measure sound
      exact ⟨rfl, sound⟩
  | cons primary rest ih =>
      intro measure sound
      obtain ⟨row, soundAfter⟩ := compareRow_spec primary secondary sound
      obtain ⟨rows, soundAtEnd⟩ := ih soundAfter
      simp only [compareRows, row, rows, List.map_cons]
      exact ⟨trivial, soundAtEnd⟩

theorem map_ratio_codes {book : List Token.Key} {tokens : List Token} {codes : List Nat}
    (coded : Coded book tokens codes) {others : List (List Token)} {otherCodes : List (List Nat)}
    (othersCoded : List.Forall₂ (Coded book) others otherCodes) :
    otherCodes.map (ratio codes) = others.map fun other => (likeness tokens other : α) := by
  induction othersCoded with
  | nil => rfl
  | cons first _ ih => simp only [List.map_cons, ratio_codes coded first, ih]

theorem map_map_ratio_codes {book : List Token.Key} {sequences others : List (List Token)}
    {codes otherCodes : List (List Nat)} (coded : List.Forall₂ (Coded book) sequences codes)
    (othersCoded : List.Forall₂ (Coded book) others otherCodes) :
    (codes.map fun code => otherCodes.map (ratio code)) =
      sequences.map fun tokens => others.map fun other => (likeness tokens other : α) := by
  induction coded with
  | nil => rfl
  | cons first _ ih => simp only [List.map_cons, map_ratio_codes first othersCoded, ih]

/-- The matrix of two graphs holds the likeness of every pair of blocks. -/
theorem matrix_spec {measure : Measure α} (sound : measure.Sound) (primary secondary : FlowGraph) :
    (measure.matrix primary secondary).2 = primary.blocks.map (fun first =>
        secondary.blocks.map fun second => likeness first.tokens second.tokens) ∧
      (measure.matrix primary secondary).1.Sound := by
  let after := measure.encodeAll (primary.blocks.map Block.tokens)
  let final := after.1.encodeAll (secondary.blocks.map Block.tokens)
  obtain ⟨_, firstKnown, firstCoded⟩ := encodeAll_spec (primary.blocks.map Block.tokens) measure
  obtain ⟨grows, secondKnown, secondCoded⟩ :=
    encodeAll_spec (secondary.blocks.map Block.tokens) after.1
  have stillSound : final.1.Sound := sound.of_known (secondKnown.trans firstKnown)
  obtain ⟨values, soundAfter⟩ := compareRows_spec final.2 after.2 stillSound
  refine ⟨?_, soundAfter⟩
  have inFinal : List.Forall₂ (Coded final.1.book) (primary.blocks.map Block.tokens) after.2 :=
    firstCoded.imp fun _ _ coded => coded.extend grows
  change (final.1.compareRows final.2 after.2).2 = _
  rw [values, map_map_ratio_codes inFinal secondCoded]
  simp only [List.map_map, Function.comp_def]

end Measure

end FlowAlign
