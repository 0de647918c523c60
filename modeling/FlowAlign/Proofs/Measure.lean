import FlowAlign.Proofs.Edit.Table
import FlowAlign.Proofs.Likeness
import FlowAlign.Proofs.Literal
import FlowAlign.Proofs.Quantity.Rational

/-!
Similarities over exact rationals, whatever was asked before. A similarity is a number between zero and
one that the edit distance of the two sequences determines, and codes once given stay, so that neither
the table of codes nor the known results can be seen from outside.
-/

namespace FlowAlign.Measure

section Likeness

theorem levenshtein_keys (primary secondary : List Token) :
    Edit.levenshtein (primary.map Token.key) (secondary.map Token.key) =
      Edit.levenshtein (primary.map Token.value) (secondary.map Token.value) :=
  Edit.levenshtein_map_congr (fun _ _ => Token.key_eq_iff) primary secondary

theorem map_key_eq_iff {primary secondary : List Token} :
    primary.map Token.key = secondary.map Token.key ↔
      primary.map Token.value = secondary.map Token.value := by
  rw [← Edit.levenshtein_eq_zero, levenshtein_keys, Edit.levenshtein_eq_zero]

/-- One minus the share of the longer sequence that has to change. -/
theorem likeness_eq (primary secondary : List Token) :
    (likeness primary secondary : Rat) = if primary = [] ∧ secondary = [] then 1 else
      1 - (Edit.levenshtein (primary.map Token.value) (secondary.map Token.value) : Rat) /
        (max primary.length secondary.length : Nat) := by
  simp only [likeness, List.length_map, Edit.distance_eq, Quantity.rat_whole, Quantity.rat_sub,
    Quantity.rat_div]
  have empty : max primary.length secondary.length = 0 ↔ primary = [] ∧ secondary = [] := by
    rw [← List.length_eq_zero_iff, ← List.length_eq_zero_iff]
    omega
  by_cases none' : primary = [] ∧ secondary = []
  · rw [if_pos (Or.inl (empty.mpr none')), if_pos none', Nat.cast_one]
  · rw [if_neg none', ← levenshtein_keys]
    split
    · rename_i equal
      rw [Edit.levenshtein_eq_zero.mpr (equal.resolve_left (mt empty.mp none'))]
      simp
    · simp

theorem likeness_nonneg (primary secondary : List Token) :
    0 ≤ (likeness primary secondary : Rat) := by
  rw [likeness_eq]
  split
  · exact zero_le_one
  · have atMost := Edit.levenshtein_le_max (primary.map Token.value) (secondary.map Token.value)
    rw [List.length_map, List.length_map] at atMost
    rw [sub_nonneg]
    exact div_le_one_of_le₀ (by exact_mod_cast atMost) (Nat.cast_nonneg _)

theorem likeness_le_one (primary secondary : List Token) :
    (likeness primary secondary : Rat) ≤ 1 := by
  rw [likeness_eq]
  split
  · exact le_rfl
  · exact sub_le_self _ (div_nonneg (Nat.cast_nonneg _) (Nat.cast_nonneg _))

theorem likeness_comm (primary secondary : List Token) :
    (likeness primary secondary : Rat) = likeness secondary primary := by
  rw [likeness_eq, likeness_eq, Edit.levenshtein_comm, max_comm]
  simp only [and_comm]

theorem likeness_eq_one {primary secondary : List Token} :
    (likeness primary secondary : Rat) = 1 ↔ primary.map Token.key = secondary.map Token.key := by
  rw [likeness_eq, ← levenshtein_keys]
  split
  · rename_i empty
    simp [empty.1, empty.2]
  · rename_i some'
    have longest : max primary.length secondary.length ≠ 0 := by
      intro none'
      rw [← List.length_eq_zero_iff, ← List.length_eq_zero_iff] at some'
      omega
    rw [sub_eq_self, div_eq_zero_iff, Nat.cast_eq_zero, Nat.cast_eq_zero, or_iff_left longest,
      Edit.levenshtein_eq_zero]

end Likeness

section Book

variable {α : Type} [Quantity α]

@[simp] theorem compare_book (measure : Measure α) (primary secondary : List Nat) :
    (measure.compare primary secondary).1.book = measure.book := by
  rw [compare]
  split <;> rfl

@[simp] theorem compareRow_book (primary : List Nat) (others : List (List Nat)) :
    ∀ measure : Measure α, (measure.compareRow primary others).1.book = measure.book := by
  induction others with
  | nil => intro measure; rfl
  | cons secondary rest ih =>
      intro measure
      simp only [compareRow, ih, compare_book]

@[simp] theorem compareRows_book (secondary primaries : List (List Nat)) :
    ∀ measure : Measure α, (measure.compareRows secondary primaries).1.book = measure.book := by
  induction primaries with
  | nil => intro measure; rfl
  | cons primary rest ih =>
      intro measure
      simp only [compareRows, ih, compareRow_book]

theorem number_of_mem {book : List Token.Key} {key : Token.Key} (entered : key ∈ book) :
    number book key = (book, book.idxOf key) := by
  have place : book.idxOf? key = some (book.idxOf key) :=
    List.findIdx?_eq_some_iff_findIdx_eq.mpr ⟨List.idxOf_lt_length_of_mem entered, rfl⟩
  simp only [number, place]

theorem numberAll_of_mem {book : List Token.Key} {tokens : List Token}
    (entered : ∀ token ∈ tokens, token.key ∈ book) :
    numberAll book tokens = (book, tokens.map fun token => book.idxOf token.key) := by
  induction tokens with
  | nil => rfl
  | cons token rest ih =>
      rw [List.forall_mem_cons] at entered
      simp only [numberAll, number_of_mem entered.1, ih entered.2, List.map_cons]

omit [Quantity α] in
/-- Tokens that have been met have their codes already. -/
theorem encode_of_mem {measure : Measure α} {tokens : List Token}
    (entered : ∀ token ∈ tokens, token.key ∈ measure.book) :
    measure.encode tokens = (measure, tokens.map fun token => measure.book.idxOf token.key) := by
  simp only [encode, numberAll_of_mem entered]

omit [Quantity α] in
theorem Coded.encode_eq {measure : Measure α} {tokens : List Token} {codes : List Nat}
    (coded : Coded measure.book tokens codes) : measure.encode tokens = (measure, codes) := by
  rw [encode_of_mem coded.entered, coded.codes_eq, List.map_map]
  rfl

theorem idxOf_key_inj {book : List Token.Key} {first second : Token} (entered : first.key ∈ book) :
    book.idxOf first.key = book.idxOf second.key ↔ first.value = second.value := by
  rw [List.idxOf_inj entered, Token.key_eq_iff]

end Book

/-- What may be asked of a measure. -/
inductive Call where
  | encode (tokens : List Token)
  | similarity (primary secondary : List Token)
  | matrix (primary secondary : FlowGraph)

namespace Call

def tokens : Call → List Token
  | encode tokens => tokens
  | similarity primary secondary => primary ++ secondary
  | matrix primary secondary => (primary.blocks ++ secondary.blocks).flatMap Block.tokens

def after {α : Type} [Quantity α] (measure : Measure α) : Call → Measure α
  | encode tokens => (measure.encode tokens).1
  | similarity primary secondary => (measure.similarity primary secondary).1
  | matrix primary secondary => (measure.matrix primary secondary).1

end Call

/-- The measure after some calls, the first one made first. -/
def reached {α : Type} [Quantity α] (calls : List Call) : Measure α :=
  calls.foldl Call.after empty

section Reached

variable {α : Type} [Quantity α]

/-- One measure comes after another one: codes stay as they are, and some tokens have been met. -/
structure Follows (earlier later : Measure α) (met : List Token) : Prop where
  sound : earlier.Sound → later.Sound
  grows : earlier.book <+: later.book
  entered : ∀ token ∈ met, token.key ∈ later.book

theorem Follows.trans {first second third : Measure α} {met more : List Token}
    (follows : Follows first second met) (others : Follows second third more) :
    Follows first third (met ++ more) where
  sound := others.sound ∘ follows.sound
  grows := follows.grows.trans others.grows
  entered := by
    intro token member
    rcases List.mem_append.mp member with before | now
    · exact others.grows.subset (follows.entered token before)
    · exact others.entered token now

theorem follows_encode (measure : Measure α) (tokens : List Token) :
    Follows measure (measure.encode tokens).1 tokens := by
  obtain ⟨grows, known, coded⟩ := encode_spec measure tokens
  exact ⟨fun sound => sound.of_known known, grows, coded.entered⟩

theorem follows_encodeAll (sequences : List (List Token)) : ∀ measure : Measure α,
    Follows measure (measure.encodeAll sequences).1 sequences.flatten := by
  induction sequences with
  | nil => exact fun measure => ⟨id, List.prefix_refl _, by simp⟩
  | cons tokens rest ih => exact fun measure => (follows_encode measure tokens).trans (ih _)

theorem follows_after (measure : Measure α) (call : Call) :
    Follows measure (call.after measure) call.tokens := by
  cases call with
  | encode tokens => exact follows_encode measure tokens
  | similarity primary secondary =>
      have encoded := (follows_encode measure primary).trans (follows_encode _ secondary)
      refine ⟨fun sound => (similarity_spec sound primary secondary).2, ?_, ?_⟩
      · simpa [Call.after, similarity] using encoded.grows
      · simpa [Call.after, Call.tokens, similarity] using encoded.entered
  | matrix primary secondary =>
      have encoded := (follows_encodeAll (primary.blocks.map Block.tokens) measure).trans
        (follows_encodeAll (secondary.blocks.map Block.tokens) _)
      refine ⟨fun sound => (matrix_spec sound primary secondary).2, ?_, ?_⟩
      · simpa [Call.after, matrix] using encoded.grows
      · simpa [Call.after, Call.tokens, matrix, List.flatMap_def] using encoded.entered

theorem follows_foldl (calls : List Call) : ∀ measure : Measure α,
    Follows measure (calls.foldl Call.after measure) (calls.flatMap Call.tokens) := by
  induction calls with
  | nil => exact fun measure => ⟨id, List.prefix_refl _, by simp⟩
  | cons call rest ih => exact fun measure => (follows_after measure call).trans (ih _)

theorem follows_reached (calls : List Call) :
    Follows empty (reached calls : Measure α) (calls.flatMap Call.tokens) :=
  follows_foldl calls empty

theorem reached_append (earlier later : List Call) (call : Call) :
    (reached (earlier ++ call :: later) : Measure α) =
      later.foldl Call.after (call.after (reached earlier)) := by
  rw [reached, List.foldl_append, List.foldl_cons, reached]

end Reached

/-- What can be seen of a measure after some calls does not depend on them. -/
structure Timeless (calls : List Call) : Prop where
  similarity : ∀ primary secondary : List Token,
    ((reached calls : Measure Rat).similarity primary secondary).2 =
      if primary = [] ∧ secondary = [] then 1 else
        1 - (Edit.levenshtein (primary.map Token.value) (secondary.map Token.value) : Rat) /
          (max primary.length secondary.length : Nat)
  fresh : ∀ primary secondary : List Token,
    ((reached calls : Measure Rat).similarity primary secondary).2 =
      (empty.similarity primary secondary).2
  nonneg : ∀ primary secondary : List Token,
    0 ≤ ((reached calls : Measure Rat).similarity primary secondary).2
  le_one : ∀ primary secondary : List Token,
    ((reached calls : Measure Rat).similarity primary secondary).2 ≤ 1
  symmetric : ∀ primary secondary : List Token,
    ((reached calls : Measure Rat).similarity primary secondary).2 =
      ((reached calls : Measure Rat).similarity secondary primary).2
  eq_one : ∀ primary secondary : List Token,
    ((reached calls : Measure Rat).similarity primary secondary).2 = 1 ↔
      primary.map Token.value = secondary.map Token.value
  /-- Tokens met have a code each, which equal ones share and different ones do not. -/
  codes : ∀ first ∈ calls.flatMap Call.tokens, ∀ second ∈ calls.flatMap Call.tokens,
    ∃ code other, (reached calls : Measure Rat).encode [first] = (reached calls, [code]) ∧
      (reached calls : Measure Rat).encode [second] = (reached calls, [other]) ∧
      (code = other ↔ first.value = second.value)
  /-- Codes handed out stay the codes of their tokens. -/
  lasting : ∀ earlier later tokens, calls = earlier ++ Call.encode tokens :: later →
    (reached calls : Measure Rat).encode tokens =
      (reached calls, ((reached earlier : Measure Rat).encode tokens).2)

/-- Whatever was asked before, neither the codes given nor the results kept show in a similarity, which
is that of the edit distance of the two sequences as they are. -/
theorem reached_timeless (calls : List Call) : Timeless calls := by
  have follows : Follows empty (reached calls : Measure Rat) _ := follows_reached calls
  have answer : ∀ primary secondary : List Token,
      ((reached calls : Measure Rat).similarity primary secondary).2 = likeness primary secondary :=
    fun primary secondary => (similarity_spec (follows.sound sound_empty) primary secondary).1
  refine
    { similarity := fun primary secondary => (answer primary secondary).trans (likeness_eq _ _)
      fresh := fun primary secondary =>
        (answer primary secondary).trans (similarity_spec sound_empty primary secondary).1.symm
      nonneg := fun primary secondary => answer primary secondary ▸ likeness_nonneg primary secondary
      le_one := fun primary secondary => answer primary secondary ▸ likeness_le_one primary secondary
      symmetric := fun primary secondary => by rw [answer, answer, likeness_comm]
      eq_one := fun primary secondary => by rw [answer, likeness_eq_one, map_key_eq_iff]
      codes := ?_
      lasting := ?_ }
  · intro first isFirst second isSecond
    have entered := follows.entered first isFirst
    have entered' := follows.entered second isSecond
    exact ⟨_, _, encode_of_mem (by simpa using entered), encode_of_mem (by simpa using entered'),
      idxOf_key_inj entered⟩
  · rintro earlier later tokens rfl
    obtain ⟨_, _, coded⟩ := encode_spec (reached earlier : Measure Rat) tokens
    have grows := (follows_foldl later ((reached earlier : Measure Rat).encode tokens).1).grows
    rw [reached_append]
    exact (coded.extend grows).encode_eq

end FlowAlign.Measure
