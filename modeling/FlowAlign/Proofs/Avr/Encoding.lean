import FlowAlign.Avr.Decode

/-!
The encodings of one word have a meaning for every word that they fit, and none of them fits a word that
goes on in a second one.
-/

namespace FlowAlign.Avr

theorem field_lt (word shift width : Nat) : field word shift width < Nat.pow 2 width :=
  Nat.mod_lt _ (Nat.two_pow_pos width)

/-- An encoding that has a meaning for every word. -/
def Encoding.Total (encoding : Encoding) : Prop :=
  ∀ word address, (encoding.read word address).isSome = true

theorem plain_total (mask bits : Nat) (mnemonic : String) (operands : Nat → List Operand) :
    (plain mask bits mnemonic operands).Total :=
  fun _ _ => rfl

theorem chosen_total (mask bits : Nat) {names : List String} {choose : Nat → Nat}
    (operands : Nat → List Operand) (below : ∀ word, choose word < names.length) :
    (chosen mask bits names choose operands).Total := by
  intro word address
  simp [chosen, List.getElem?_eq_getElem (below word)]

theorem twoRegisters_total (bits : Nat) (mnemonic : String) (onSame : Option String) :
    (twoRegisters bits mnemonic onSame).Total := by
  intro word address
  cases onSame with
  | none => rfl
  | some name =>
      simp only [twoRegisters]
      split <;> rfl

theorem multiplications_total : ∀ encoding ∈ multiplications, encoding.Total := by
  simp only [multiplications, List.forall_mem_cons, List.not_mem_nil, false_implies, implies_true,
    and_true]
  refine ⟨plain_total _ _ _ _, plain_total _ _ _ _, chosen_total _ _ _ ?_⟩
  intro word
  have high : field word 7 1 < 2 := field_lt word 7 1
  have low : field word 3 1 < 2 := field_lt word 3 1
  simp only [List.length_cons, List.length_nil]
  omega

theorem arithmetic_total : ∀ encoding ∈ arithmetic, encoding.Total := by
  simp only [arithmetic, List.forall_mem_cons, twoRegisters_total, List.not_mem_nil, false_implies,
    implies_true, and_true]

theorem displaced_total : displaced.Total := by
  intro word address
  simp only [displaced]
  split <;> rfl

theorem pointed_total : ∀ encoding ∈ pointed, encoding.Total := by
  intro encoding member
  obtain ⟨⟨mode, text⟩, _, isPlain⟩ := List.mem_flatMap.mp member
  simp only [List.mem_cons, List.not_mem_nil, or_false] at isPlain
  rcases isPlain with rfl | rfl
  · exact plain_total _ _ _ _
  · exact plain_total _ _ _ _

theorem special_total : ∀ encoding ∈ special, encoding.Total := by
  simp only [special, List.forall_mem_cons, plain_total, List.not_mem_nil, false_implies,
    implies_true, and_true]

theorem singles_total : ∀ encoding ∈ singles, encoding.Total := by
  simp only [singles, List.forall_mem_append, List.forall_mem_cons, plain_total, List.not_mem_nil,
    false_implies, implies_true, and_true, List.forall_mem_map]
  have below (word : Nat) := field_lt word 4 3
  exact ⟨chosen_total _ _ _ below, chosen_total _ _ _ below⟩

theorem inputOutput_total : ∀ encoding ∈ inputOutput, encoding.Total := by
  simp only [inputOutput, List.forall_mem_cons, List.not_mem_nil, false_implies, implies_true,
    and_true]
  exact ⟨chosen_total _ _ _ fun word => field_lt word 8 1,
    chosen_total _ _ _ fun word => field_lt word 8 2,
    chosen_total _ _ _ fun word => field_lt word 11 1⟩

theorem branches_total : ∀ encoding ∈ branches, encoding.Total := by
  simp only [branches, List.forall_mem_cons, List.not_mem_nil, false_implies, implies_true, and_true]
  refine ⟨fun _ _ => rfl, fun _ _ => rfl, ?_, chosen_total _ _ _ fun word => field_lt word 9 2⟩
  intro word address
  have below : field word 0 3 < 8 := field_lt word 0 3
  by_cases clear : field word 10 1 = 1
  · simp [clear, below]
  · simp [clear, below]

theorem encodings_total : ∀ encoding ∈ encodings, encoding.Total := by
  simp only [encodings, List.forall_mem_append, List.forall_mem_singleton]
  refine ⟨⟨⟨⟨⟨⟨⟨⟨⟨?_, multiplications_total⟩, arithmetic_total⟩, ?_⟩, displaced_total⟩,
    pointed_total⟩, special_total⟩, singles_total⟩, inputOutput_total⟩, branches_total⟩
  · exact List.forall_mem_map.mpr fun _ _ _ _ => rfl
  · exact List.forall_mem_map.mpr fun _ _ => plain_total _ _ _ _

def Encoding.Fits (encoding : Encoding) (word : Nat) : Prop :=
  word &&& encoding.mask = encoding.bits

/-- A word means something by itself wherever it is, if an encoding fits it. -/
theorem readShort_eq_none {word : Nat} {address : Int} :
    readShort word address = none ↔ ∀ encoding ∈ encodings, ¬encoding.Fits word := by
  cases found : encodings.find? fun encoding => word &&& encoding.mask = encoding.bits with
  | none =>
      simp only [readShort, found, Encoding.Fits]
      simpa using List.find?_eq_none.mp found
  | some encoding =>
      have member := List.mem_of_find?_eq_some found
      have fits : word &&& encoding.mask = encoding.bits := by simpa using List.find?_some found
      obtain ⟨reading, read⟩ :=
        Option.isSome_iff_exists.mp (encodings_total encoding member word address)
      constructor
      · intro missing
        simp [readShort, found, read] at missing
      · intro none'
        exact (none' encoding member fits).elim

theorem and_comm_of_fits {word mask bits mask' bits' : Nat} (fits : word &&& mask = bits)
    (fits' : word &&& mask' = bits') : bits &&& mask' = bits' &&& mask := by
  rw [← fits, ← fits', Nat.and_assoc, Nat.and_assoc, Nat.and_comm mask mask']

/-- Every encoding of one word fixes a bit otherwise than each pattern of a first word of two does. -/
theorem encodings_apart : ∀ encoding ∈ encodings,
    0x9000 &&& encoding.mask ≠ encoding.bits &&& 0xfe0f ∧
    0x9200 &&& encoding.mask ≠ encoding.bits &&& 0xfe0f ∧
    0x940c &&& encoding.mask ≠ encoding.bits &&& 0xfe0c := by
  decide

/-- No word that goes on in a second one is also an encoding of its own. -/
theorem not_fits_of_isTwoWords {word : Nat} (long : isTwoWords word = true) :
    ∀ encoding ∈ encodings, ¬encoding.Fits word := by
  intro encoding member fits
  obtain ⟨load, store, transfer⟩ := encodings_apart encoding member
  simp only [isTwoWords, Bool.or_eq_true, decide_eq_true_eq] at long
  rcases long with (isLoad | isStore) | isTransfer
  · exact load (and_comm_of_fits isLoad fits)
  · exact store (and_comm_of_fits isStore fits)
  · exact transfer (and_comm_of_fits isTransfer fits)

end FlowAlign.Avr
