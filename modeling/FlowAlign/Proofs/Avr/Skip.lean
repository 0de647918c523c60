import FlowAlign.Proofs.Avr.Tiling

/-!
An instruction that skips branches over the instruction behind it. How long that is comes from its first
word before it is read, so the two have to agree on every word, one that is cut short included.
-/

namespace FlowAlign.Avr

/-- Bytes that are skipped in front of some words. -/
def skipped : List Nat → Nat
  | [] => 0
  | word :: _ => sizeOf word

theorem targets_withSkip {address : Int} {size : Nat} {after : List Nat} {reading : Reading}
    (skipping : reading.mnemonic ∈ skips) :
    (withSkip address size after.head? reading).flow = .condJump ∧
      (withSkip address size after.head? reading).targets = [address + size + skipped after] := by
  have isSkip : skips.contains reading.mnemonic = true := List.contains_iff_mem.mpr skipping
  unfold withSkip
  rw [if_pos isSkip]
  cases after with
  | nil => exact ⟨rfl, rfl⟩
  | cons word rest => exact ⟨rfl, rfl⟩

theorem mnemonic_withSkip (address : Int) (size : Nat) (following : Option Nat)
    (reading : Reading) : (withSkip address size following reading).mnemonic = reading.mnemonic := by
  unfold withSkip
  split
  · rfl
  · rfl

namespace Next

variable {address : Int} {word : Nat} {rest after : List Nat} {first : Instruction}

theorem skips_over (next : Next address word rest first after) (skipping : first.mnemonic ∈ skips) :
    first.flow = .condJump ∧ first.targets = [first.address + first.size + skipped after] := by
  cases next with
  | undecoded _ =>
      have notSkip : ".word" ∉ skips := by decide
      exact (notSkip skipping).elim
  | short _ _ => exact targets_withSkip (mnemonic_withSkip _ _ _ _ ▸ skipping)
  | long _ => exact targets_withSkip (mnemonic_withSkip _ _ _ _ ▸ skipping)

/-- The first word tells the size of an instruction, unless its second word is missing. -/
theorem sizeOf_cases (next : Next address word rest first after) :
    first.size = sizeOf word ∨ after = [] ∧ first.size ≤ sizeOf word := by
  cases next with
  | undecoded missing =>
      cases long : isTwoWords word with
      | false => exact Or.inl (by simp [dataWord, instruction, sizeOf, long])
      | true =>
          have alone := (readWord_eq_none.mp missing).2 long
          exact Or.inr ⟨List.head?_eq_none_iff.mp alone, by simp [dataWord, instruction, sizeOf, long]⟩
  | short short _ => exact Or.inl (by simp [instruction, sizeOf, short])
  | long long => exact Or.inl (by simp [instruction, sizeOf, long])

end Next

namespace Decodes

variable {address : Int} {words : List Nat} {instructions : List Instruction}

theorem address_lt (decodes : Decodes address words instructions) {instruction : Instruction}
    (member : instruction ∈ instructions) : instruction.address < address + 2 * words.length := by
  obtain ⟨position, word, rest, _, found, place, _⟩ := decodes.placed instruction member
  have length := congrArg List.length found
  rw [List.length_drop, List.length_cons] at length
  omega

/-- Bytes skipped in front of some words are those of their first instruction, or more than there are. -/
theorem skipped_first (decodes : Decodes address words instructions) :
    (∀ second, instructions[1]? = some second → second.address = address + skipped words) ∧
    (instructions[1]? = none → 2 * words.length ≤ skipped words) := by
  cases decodes with
  | done => simp
  | @next _ word rest first after later next decodes =>
      have covered := next.covered
      rw [List.getElem?_cons_succ, ← List.head?_eq_getElem?, skipped]
      constructor
      · intro second isSecond
        rw [decodes.begins isSecond]
        rcases next.sizeOf_cases with size | ⟨rfl, _⟩
        · rw [size]
        · cases decodes
          cases isSecond
      · intro isLast
        obtain rfl := List.head?_eq_none_iff.mp isLast
        cases decodes
        rw [List.length_nil] at covered
        rcases next.sizeOf_cases with size | ⟨_, size⟩
        · omega
        · omega

/-- An instruction that skips branches to the second one behind it, or to an address that no word is at. -/
theorem skips_over (decodes : Decodes address words instructions) {position : Nat}
    {instruction : Instruction} (here : instructions[position]? = some instruction)
    (skipping : instruction.mnemonic ∈ skips) :
    instruction.flow = .condJump ∧ ∃ target, instruction.targets = [target] ∧
      (∀ landing, instructions[position + 2]? = some landing → landing.address = target) ∧
      (instructions[position + 2]? = none → address + 2 * words.length ≤ target) := by
  induction decodes generalizing position with
  | done => cases here
  | @next address word rest first after later next decodes ih =>
      have start := next.address_eq
      have covered := next.covered
      cases position with
      | zero =>
          obtain rfl := Option.some.inj here
          obtain ⟨isJump, isTarget⟩ := next.skips_over skipping
          -- only now is the skipped instruction decoded whose first word told its size
          obtain ⟨lands, leaves⟩ := decodes.skipped_first
          refine ⟨isJump, _, isTarget, ?_, ?_⟩
          · intro landing found
            rw [lands landing found, start]
          · intro isLast
            have behind := leaves isLast
            omega
      | succ position =>
          obtain ⟨isJump, target, isTarget, lands, leaves⟩ := ih here
          refine ⟨isJump, target, isTarget, lands, ?_⟩
          intro isLast
          have behind := leaves isLast
          omega

end Decodes

/-- An instruction that skips is a branch to the second instruction behind it, or to no instruction if there
is none. -/
theorem decode_skip (data : Bytes) (address : Int) (position : Nat) (instruction : Instruction)
    (here : (decode data address)[position]? = some instruction)
    (skipping : instruction.mnemonic ∈ skips) :
    instruction.flow = .condJump ∧ ∃ target, instruction.targets = [target] ∧
      (∀ landing, (decode data address)[position + 2]? = some landing →
        landing.address = target) ∧
      ((decode data address)[position + 2]? = none →
        ∀ other ∈ decode data address, other.address ≠ target) := by
  have decodes := decodes (words data) address
  obtain ⟨isJump, target, isTarget, lands, leaves⟩ := decodes.skips_over here skipping
  refine ⟨isJump, target, isTarget, lands, ?_⟩
  intro isLast other member
  have before := decodes.address_lt member
  have behind := leaves isLast
  omega

def skipOverJump : Bytes := [0x00, 0xfc, 0x0c, 0x94, 0x00, 0x00, 0x00, 0x00]

theorem decode_skip_jump : ∃ skip jump landing,
    decode skipOverJump 0 = [skip, jump, landing] ∧ skip.mnemonic = "sbrc" ∧ jump.size = 4 ∧
      skip.flow = .condJump ∧ skip.targets = [landing.address] := by
  have listing : (decode skipOverJump 0).map (fun instruction =>
      (instruction.mnemonic, instruction.size)) = [("sbrc", 2), ("jmp", 4), ("nop", 2)] := by
    with_unfolding_all decide
  simp only [List.map_eq_cons_iff, List.map_eq_nil_iff, Prod.mk.injEq] at listing
  obtain ⟨skip, _, decoded, ⟨isSkip, _⟩, jump, _, rfl, ⟨_, long⟩, landing, _, rfl, _, rfl⟩ := listing
  have here : (decode skipOverJump 0)[0]? = some skip := by rw [decoded, List.getElem?_cons_zero]
  have skipping : skip.mnemonic ∈ skips := by simp [isSkip, skips]
  obtain ⟨isJump, target, isTarget, lands, _⟩ :=
    decode_skip skipOverJump 0 0 skip here skipping
  refine ⟨skip, jump, landing, decoded, isSkip, long, isJump, ?_⟩
  rw [isTarget, lands landing (by rw [decoded]; rfl)]

end FlowAlign.Avr
