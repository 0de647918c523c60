import FlowAlign.Proofs.Code.Layout
import Mathlib.Data.List.Nodup

/-!
The blocks of a body are its maximal basic blocks. One after the other they are the body, they start
exactly where control may arrive or has just left, so that nothing leaves them before their end, and
their exits, the ones of unresolved jumps included, lead to starts of blocks.
-/

namespace FlowAlign.Code

/-- An instruction that starts a block: the first one, one right behind a terminator, or a target. -/
def Starts (body : List Instruction) (instruction : Instruction) : Prop :=
  body.head? = some instruction ∨
  (∃ previous, [previous, instruction] <:+: body ∧ previous.flow.isTerminator = true) ∨
  ∃ source ∈ body, source.flow.isTerminator = true ∧ instruction.address ∈ source.targets

structure BasicBlocks (body : List Instruction) (blocks : List CodeBlock) : Prop where
  joined : blocks.flatMap CodeBlock.instructions = body
  addressed : ∀ block ∈ blocks, ∃ first, block.instructions.head? = some first ∧
    block.address = first.address
  starts_iff : ∀ instruction ∈ body,
    (∃ block ∈ blocks, block.instructions.head? = some instruction) ↔ Starts body instruction
  goes_on : ∀ block ∈ blocks, ∀ instruction ∈ block.instructions.dropLast,
    instruction.flow.isTerminator = false
  closed : ∀ block ∈ blocks, ∀ exit ∈ block.exits, ∃ target ∈ blocks, exit.target = target.address

section Blocks

variable {body : List Instruction}

theorem starts_iff_leader (distinct : (addresses body).Nodup) {instruction : Instruction}
    (member : instruction ∈ body) :
    Starts body instruction ↔ instruction.address ∈ leaders body := by
  -- with distinct addresses the instruction at an address is known
  have same : ∀ other ∈ body, other.address = instruction.address → other = instruction :=
    fun other isOther => List.inj_on_of_nodup_map distinct isOther member
  rw [mem_leaders]
  constructor
  · rintro (isFirst | ⟨previous, ⟨before, after, place⟩, terminates⟩ | ⟨source, isSource, terminates, aims⟩)
    · exact Or.inl ⟨instruction, isFirst, rfl⟩
    · refine Or.inr (Or.inl ⟨before, previous, instruction, after, ?_, terminates, rfl⟩)
      simp [← place]
    · exact Or.inr (Or.inr ⟨source, isSource, terminates, aims, List.mem_map_of_mem member⟩)
  · rintro (⟨first, isFirst, equal⟩ | ⟨before, previous, here, after, place, terminates, equal⟩ |
      ⟨source, isSource, terminates, aims, _⟩)
    · obtain rfl := same first (List.mem_of_mem_head? isFirst) equal
      exact Or.inl isFirst
    · obtain rfl := same here (by simp [place]) equal
      exact Or.inr (Or.inl ⟨previous, ⟨before, after, by simp [place]⟩, terminates⟩)
    · exact Or.inr (Or.inr ⟨source, isSource, terminates, aims⟩)

theorem split_instructions (body : List Instruction) :
    (split body).map CodeBlock.instructions = cut (leaders body) body := by
  rw [split, connectOrphans_instructions, looseBlocks, blocksOf_instructions (cut_ne_nil _ body)]

/-- Connecting orphans changes nothing but exits. -/
theorem split_loose {block : CodeBlock} (isBlock : block ∈ split body) :
    ∃ loose ∈ looseBlocks body, block.instructions = loose.instructions ∧
      block.address = loose.address := by
  rw [split, connectOrphans_eq] at isBlock
  obtain ⟨loose, isLoose, rfl⟩ := List.mem_map.mp isBlock
  refine ⟨loose, isLoose, ?_⟩
  split
  · exact ⟨rfl, rfl⟩
  · exact ⟨rfl, rfl⟩

theorem split_head_iff (distinct : (addresses body).Nodup) {instruction : Instruction}
    (member : instruction ∈ body) :
    (∃ block ∈ split body, block.instructions.head? = some instruction) ↔
      Starts body instruction := by
  rw [starts_iff_leader distinct member]
  constructor
  · rintro ⟨block, isBlock, head⟩
    have isGroup : block.instructions ∈ cut (leaders body) body := by
      rw [← split_instructions]
      exact List.mem_map_of_mem isBlock
    obtain ⟨first, rest, rfl⟩ := List.exists_cons_of_ne_nil (List.ne_nil_of_mem member)
    obtain ⟨start, isStart, isLeader⟩ := cut_begins first rest isGroup
    rw [head, Option.some.injEq] at isStart
    rwa [isStart]
  · intro isLeader
    obtain ⟨group, isGroup, head⟩ := cut_starts isLeader body member
    rw [← split_instructions] at isGroup
    obtain ⟨block, isBlock, rfl⟩ := List.mem_map.mp isGroup
    exact ⟨block, isBlock, head⟩

end Blocks

theorem split_basicBlocks (body : List Instruction) (distinct : (addresses body).Nodup) :
    BasicBlocks body (split body) := by
  constructor
  · rw [List.flatMap_def, split_instructions, flatten_cut]
  · intro block isBlock
    obtain ⟨loose, isLoose, instructions, address⟩ := split_loose isBlock
    obtain ⟨_, _, _, _, placed⟩ := looseBlocks_placed isLoose
    obtain ⟨first, head, starts⟩ := Option.map_eq_some_iff.mp placed.starts
    exact ⟨first, by rw [instructions, head], by rw [address, starts]⟩
  · intro instruction member
    exact split_head_iff distinct member
  · intro block isBlock instruction isInner
    obtain ⟨loose, isLoose, instructions, _⟩ := split_loose isBlock
    obtain ⟨_, _, _, _, placed⟩ := looseBlocks_placed isLoose
    rw [instructions, placed.instructions_eq, List.dropLast_concat] at isInner
    exact placed.inner_goes_on isInner
  · intro block isBlock exit isExit
    obtain ⟨target, isTarget, equal⟩ := List.mem_map.mp (split_closed body block isBlock exit isExit)
    exact ⟨target, isTarget, equal.symm⟩

/-- A call into straight code, a branch further into it, a computed jump out of the function, and behind
it a case that only the computed jump can lead to and that goes back to the start. -/
def mingledBody : List Instruction :=
  [{ address := 0, mnemonic := "call", text := "call 5", flow := .call, targets := [5] },
   { address := 2, mnemonic := "je", text := "je 6", flow := .condJump, targets := [6] },
   { address := 4, mnemonic := "nop", text := "nop" },
   { address := 5, mnemonic := "nop", text := "nop" },
   { address := 6, mnemonic := "nop", text := "nop" },
   { address := 7, mnemonic := "jmp", text := "jmp rax", flow := .indirectJump, targets := [99] },
   { address := 9, mnemonic := "nop", text := "nop" },
   { address := 10, mnemonic := "jmp", text := "jmp 0", flow := .jump, targets := [0] }]

theorem split_basicBlocks_mingled :
    (addresses mingledBody).Nodup ∧
    (split mingledBody).map (fun block => addresses block.instructions) =
      [[0, 2], [4, 5], [6, 7], [9, 10]] ∧
    (split mingledBody).map (fun block => block.exits.map Exit.target) = [[6, 4], [6], [9], [0]] ∧
    BasicBlocks mingledBody (split mingledBody) := by
  have distinct : (addresses mingledBody).Nodup := by decide
  exact ⟨distinct, by decide, by decide, split_basicBlocks mingledBody distinct⟩

end FlowAlign.Code
