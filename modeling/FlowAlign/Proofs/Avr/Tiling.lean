import FlowAlign.Proofs.Avr.Encoding
import Mathlib.Algebra.BigOperators.Group.List.Basic
import Mathlib.Algebra.Ring.Int.Defs
import Mathlib.Data.List.Chain

/-!
AVR code is tiled by its instructions. They follow each other without a gap up to the last whole word, one
of four bytes has both of its words, and a word is left undecoded exactly if no encoding fits it or its
second word is missing.
-/

namespace FlowAlign.Avr

section Words

theorem length_words : ∀ data : Bytes, (words data).length = data.length / 2
  | [] => rfl
  | [_] => by simp [words]
  | low :: high :: rest => by
      have tail := length_words rest
      simp only [words, List.length_cons, tail]
      omega

theorem getElem?_words : ∀ (data : Bytes) (position : Nat),
    (words data)[position]? = data.field? .little 2 (2 * position)
  | [], position => by simp [words, Bytes.field?]
  | [byte], position => by
      have outside : ¬2 * position + 2 ≤ 1 := by omega
      simp [words, Bytes.field?, outside]
  | low :: high :: rest, 0 => by simp [words, Bytes.field?, Bytes.number, Bytes.littleNumber]
  | low :: high :: rest, position + 1 => by
      have tail := getElem?_words rest position
      rw [words, List.getElem?_cons_succ, tail]
      have shift : 2 * (position + 1) = 2 * position + 1 + 1 := by omega
      simp only [Bytes.field?, shift, List.drop_succ_cons, List.length_cons]
      by_cases inside : 2 * position + 2 ≤ rest.length
      · rw [if_pos inside, if_pos (by omega)]
      · rw [if_neg inside, if_neg (by omega)]

end Words

/-- A word is read unless nothing fits it but, at most, the encoding of two words with one of them
missing. -/
theorem readWord_eq_none {word : Nat} {extra : Option Nat} {address : Int} :
    readWord word extra address = none ↔
      (∀ encoding ∈ encodings, ¬encoding.Fits word) ∧ (isTwoWords word = true → extra = none) := by
  rw [readWord]
  cases long : isTwoWords word with
  | true =>
      have never := not_fits_of_isTwoWords long
      simpa using fun _ => never
  | false => simp [readShort_eq_none]

/-- What the decoder makes of a word and those behind it: an instruction, and the words it leaves. -/
inductive Next (address : Int) (word : Nat) : List Nat → Instruction → List Nat → Prop
  | undecoded {rest} : readWord word rest.head? address = none →
      Next address word rest (dataWord address word) rest
  | short {rest reading} : isTwoWords word = false → readShort word address = some reading →
      Next address word rest (instruction address 2 (withSkip address 2 rest.head? reading)) rest
  | long {extra rest} : isTwoWords word = true →
      Next address word (extra :: rest)
        (instruction address 4 (withSkip address 4 rest.head? (readLong word extra))) rest

theorem exists_next (address : Int) (word : Nat) (rest : List Nat) :
    ∃ first after, Next address word rest first after ∧
      decodeWords address (word :: rest) = first :: decodeWords (address + first.size) after := by
  rw [decodeWords]
  cases read : readWord word rest.head? address with
  | none => exact ⟨_, _, .undecoded read, rfl⟩
  | some reading =>
      simp only [readWord] at read
      cases long : isTwoWords word with
      | false =>
          rw [long] at read
          exact ⟨_, _, .short long read, by simp [sizeOf, long, instruction]⟩
      | true =>
          simp only [long, if_true] at read
          obtain ⟨extra, isExtra, rfl⟩ := Option.map_eq_some_iff.mp read
          obtain ⟨after, rfl⟩ := List.head?_eq_some_iff.mp isExtra
          exact ⟨_, _, .long long, by simp [sizeOf, long, instruction]⟩

/-- The instructions that words at an address are decoded to. -/
inductive Decodes : Int → List Nat → List Instruction → Prop
  | done {address} : Decodes address [] []
  | next {address word rest first after later} : Next address word rest first after →
      Decodes (address + first.size) after later → Decodes address (word :: rest) (first :: later)

namespace Next

variable {address : Int} {word : Nat} {rest after : List Nat} {first : Instruction}

theorem address_eq (next : Next address word rest first after) : first.address = address := by
  cases next with
  | undecoded _ => rfl
  | short _ _ => rfl
  | long _ => rfl

theorem size_cases (next : Next address word rest first after) :
    first.size = 2 ∧ rest = after ∨ first.size = 4 ∧ isTwoWords word = true ∧
      ∃ extra, rest = extra :: after := by
  cases next with
  | undecoded _ => exact Or.inl ⟨rfl, rfl⟩
  | short _ _ => exact Or.inl ⟨rfl, rfl⟩
  | long long => exact Or.inr ⟨rfl, long, _, rfl⟩

theorem covered (next : Next address word rest first after) :
    first.size + 2 * after.length = 2 * (word :: rest).length := by
  rcases next.size_cases with ⟨size, rfl⟩ | ⟨size, _, extra, rfl⟩
  · rw [size, List.length_cons]
    omega
  · rw [size, List.length_cons, List.length_cons]
    omega

theorem undecoded_iff (next : Next address word rest first after) :
    first.undecoded = true ↔ readWord word rest.head? address = none := by
  cases next with
  | undecoded missing => exact ⟨fun _ => missing, fun _ => rfl⟩
  | short short read => simp [instruction, readWord, short, read]
  | long long => simp [instruction, readWord, long]

theorem eq_dataWord (next : Next address word rest first after)
    (isData : first.undecoded = true) : first = dataWord address word := by
  cases next with
  | undecoded _ => rfl
  | short _ _ => cases isData
  | long _ => cases isData

theorem length_lt (next : Next address word rest first after) :
    after.length < (word :: rest).length := by
  have covered := next.covered
  rcases next.size_cases with ⟨size, _⟩ | ⟨size, _, _⟩
  · omega
  · omega

end Next

theorem decodes : ∀ (words : List Nat) (address : Int),
    Decodes address words (decodeWords address words) := by
  intro words
  -- on the number of words, for an instruction may take two of them
  induction length : words.length using Nat.strongRecOn generalizing words with
  | ind length ih =>
      intro address
      cases words with
      | nil =>
          rw [decodeWords]
          exact .done
      | cons word rest =>
          obtain ⟨first, after, next, decoded⟩ := exists_next address word rest
          rw [decoded]
          exact .next next (ih after.length (length ▸ next.length_lt) after rfl _)

namespace Decodes

variable {address : Int} {words : List Nat} {instructions : List Instruction}

/-- Every instruction is what the decoder makes of the words at its place. -/
theorem placed (decodes : Decodes address words instructions) :
    ∀ instruction ∈ instructions, ∃ position word rest after,
      words.drop position = word :: rest ∧ instruction.address = address + 2 * (position : Int) ∧
      Next instruction.address word rest instruction after := by
  induction decodes with
  | done => simp
  | @next address word rest first after later next _ ih =>
      have here := next.address_eq
      intro instruction member
      rcases List.mem_cons.mp member with rfl | behind
      · exact ⟨0, word, rest, after, rfl, by omega, here ▸ next⟩
      · obtain ⟨position, other, others, last, found, place, isNext⟩ := ih instruction behind
        rcases next.size_cases with ⟨size, rfl⟩ | ⟨size, _, extra, rfl⟩
        · exact ⟨position + 1, other, others, last, found, by omega, isNext⟩
        · exact ⟨position + 2, other, others, last, found, by omega, isNext⟩

theorem begins (decodes : Decodes address words instructions) {first : Instruction}
    (isFirst : instructions.head? = some first) : first.address = address := by
  cases decodes with
  | done => cases isFirst
  | next next _ =>
      obtain rfl := Option.some.inj isFirst
      exact next.address_eq

theorem follows (decodes : Decodes address words instructions) :
    instructions.IsChain fun earlier later : Instruction =>
      later.address = earlier.address + earlier.size := by
  induction decodes with
  | done => exact .nil
  | next next later ih =>
      rw [List.isChain_cons]
      refine ⟨?_, ih⟩
      intro second isSecond
      rw [next.address_eq, later.begins isSecond]

theorem covered (decodes : Decodes address words instructions) :
    (instructions.map Instruction.size).sum = 2 * words.length := by
  induction decodes with
  | done => rfl
  | next next _ ih =>
      have covered := next.covered
      rw [List.map_cons, List.sum_cons, ih]
      omega

theorem exists_holder (decodes : Decodes address words instructions) :
    ∀ offset : Nat, offset < 2 * words.length → ∃ (index : Nat) (instruction : Instruction),
      instructions[index]? = some instruction ∧ instruction.address ≤ address + offset ∧
      address + offset < instruction.address + instruction.size := by
  induction decodes with
  | done =>
      intro offset inside
      cases inside
  | @next address word rest first after later next _ ih =>
      have here := next.address_eq
      have covered := next.covered
      intro offset inside
      by_cases early : (offset : Int) < first.size
      · exact ⟨0, first, rfl, by omega, by omega⟩
      · -- the byte is behind the first instruction, at a lower offset into the words behind it
        have positive : 0 ≤ first.size := by
          rcases next.size_cases with ⟨size, _⟩ | ⟨size, _, _⟩
          · omega
          · omega
        obtain ⟨index, instruction, found, lower, upper⟩ :=
          ih (offset - first.size.toNat) (by omega)
        exact ⟨index + 1, instruction, found, by omega, by omega⟩

theorem apart (decodes : Decodes address words instructions) :
    instructions.Pairwise fun earlier later : Instruction =>
      earlier.address + earlier.size ≤ later.address := by
  induction decodes with
  | done => exact .nil
  | next next later ih =>
      have here := next.address_eq
      refine List.pairwise_cons.mpr ⟨?_, ih⟩
      intro instruction member
      obtain ⟨position, _, _, _, _, place, _⟩ := later.placed instruction member
      omega

theorem holder_unique (decodes : Decodes address words instructions) {first second : Nat}
    {holder other : Instruction} (isFirst : instructions[first]? = some holder)
    (isSecond : instructions[second]? = some other) {place : Int}
    (lower : holder.address ≤ place) (upper : place < holder.address + holder.size)
    (lower' : other.address ≤ place) (upper' : place < other.address + other.size) :
    first = second := by
  obtain ⟨inside, rfl⟩ := List.getElem?_eq_some_iff.mp isFirst
  obtain ⟨inside', rfl⟩ := List.getElem?_eq_some_iff.mp isSecond
  have apart := List.pairwise_iff_getElem.mp decodes.apart
  rcases Nat.lt_trichotomy first second with below | same | above
  · have gap := apart first second inside inside' below
    omega
  · exact same
  · have gap := apart second first inside' inside above
    omega

end Decodes

/-- An instruction that is read from the word at an offset. It has four bytes if the word goes on in a second
one that is there, and is a datum of one word if no encoding fits. -/
structure Reads (data : Bytes) (offset word : Nat) (instruction : Instruction) : Prop where
  found : data.field? .little 2 offset = some word
  size_iff : instruction.size = 4 ↔
    isTwoWords word = true ∧ (data.field? .little 2 (offset + 2)).isSome = true
  undecoded_iff : instruction.undecoded = true ↔ (∀ encoding ∈ encodings, ¬encoding.Fits word) ∧
    (isTwoWords word = true → data.field? .little 2 (offset + 2) = none)
  asData : instruction.undecoded = true → instruction.size = 2 ∧ instruction.mnemonic = ".word" ∧
    instruction.operands = [immediate word] ∧ instruction.flow = .sequential ∧
    instruction.targets = []

/-- Instructions of two or four bytes without a gap from an address up to the last whole word of some data,
every byte in one of them. -/
structure Tiles (data : Bytes) (address : Int) (instructions : List Instruction) : Prop where
  sizes : ∀ instruction ∈ instructions, instruction.size = 2 ∨ instruction.size = 4
  begins : ∀ first, instructions.head? = some first → first.address = address
  follows : instructions.IsChain fun earlier later : Instruction =>
    later.address = earlier.address + earlier.size
  covered : (instructions.map Instruction.size).sum = 2 * (data.length / 2 : Nat)
  once : ∀ offset < 2 * (data.length / 2), ∃! index : Nat, ∃ instruction : Instruction,
    instructions[index]? = some instruction ∧ instruction.address ≤ address + (offset : Nat) ∧
    address + (offset : Nat) < instruction.address + instruction.size
  placed : ∀ instruction ∈ instructions, ∃ offset word,
    instruction.address = address + (offset : Nat) ∧ Reads data offset word instruction

theorem Next.reads {data : Bytes} {address : Int} {position word : Nat} {rest after : List Nat}
    {first : Instruction} (next : Next address word rest first after)
    (found : (words data).drop position = word :: rest) :
    Reads data (2 * position) word first := by
  have here : (words data)[position]? = some word := by
    rw [← List.head?_drop, found, List.head?_cons]
  have behind : rest.head? = data.field? .little 2 (2 * position + 2) := by
    have tail : (words data).drop (position + 1) = rest := by
      rw [← List.tail_drop, found, List.tail_cons]
    rw [← tail, List.head?_drop, getElem?_words]
    rfl
  rw [getElem?_words] at here
  refine ⟨here, ?_, ?_, ?_⟩
  · rw [← behind]
    cases next with
    | undecoded missing =>
        have alone := (readWord_eq_none.mp missing).2
        constructor
        · intro four
          cases four
        · rintro ⟨long, present⟩
          rw [alone long] at present
          cases present
    | short short _ => simp [instruction, short]
    | long long => simp [instruction, long]
  · rw [next.undecoded_iff, readWord_eq_none, behind]
  · intro isData
    rw [next.eq_dataWord isData]
    exact ⟨rfl, rfl, rfl, rfl, rfl⟩

/-- The instructions that data are decoded to tile its whole words. -/
theorem decode_tiles (data : Bytes) (address : Int) : Tiles data address (decode data address) := by
  have decodes := decodes (words data) address
  have length := length_words data
  refine ⟨?_, fun _ => decodes.begins, decodes.follows, ?_, ?_, ?_⟩
  · intro instruction member
    obtain ⟨_, _, _, _, _, _, next⟩ := decodes.placed instruction member
    rcases next.size_cases with ⟨size, _⟩ | ⟨size, _, _⟩
    · exact Or.inl size
    · exact Or.inr size
  · rw [decode, decodes.covered, length]
  · intro offset inside
    obtain ⟨index, holder, found, lower, upper⟩ := decodes.exists_holder offset (length ▸ inside)
    refine ⟨index, ⟨holder, found, lower, upper⟩, ?_⟩
    rintro other ⟨instruction, isOther, lower', upper'⟩
    exact decodes.holder_unique isOther found lower' upper' lower upper
  · intro instruction member
    obtain ⟨position, word, rest, after, found, place, next⟩ := decodes.placed instruction member
    exact ⟨2 * position, word, by omega, next.reads found⟩

end FlowAlign.Avr
