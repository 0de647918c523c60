import FlowAlign.Proofs.Code.Targets
import Mathlib.Data.List.Chain

/-!
How a body is laid out in blocks. The blocks one after the other are the body again, each of them is
left only at its end, and the address that follows its end is that of the next instruction. They are
exactly the stretches from one leader to the next.
-/

namespace FlowAlign.Code

theorem cut_ne_nil (starts : List Int) : ∀ body : List Instruction,
    ∀ group ∈ cut starts body, group ≠ []
  | [], group, member => by simp [cut] at member
  | [last], group, member => by
      rw [cut, List.mem_singleton] at member
      simp [member]
  | first :: second :: rest, group, member => by
      have later := cut_ne_nil starts (second :: rest)
      simp only [cut] at member
      split at member
      · rw [List.mem_singleton] at member
        simp [member]
      · rename_i next groups behind
        rw [behind] at later
        split at member
        · rcases List.mem_cons.mp member with rfl | member
          · simp
          · exact later group member
        · rcases List.mem_cons.mp member with rfl | member
          · simp
          · exact later group (List.mem_cons_of_mem _ member)

/-- In a group only the first instruction may be at a start. -/
theorem cut_isChain (starts : List Int) : ∀ body : List Instruction, ∀ group ∈ cut starts body,
    group.IsChain fun _ second => second.address ∉ starts
  | [], group, member => by simp [cut] at member
  | [last], group, member => by
      rw [cut, List.mem_singleton] at member
      simp [member]
  | first :: second :: rest, group, member => by
      have later := cut_isChain starts (second :: rest)
      obtain ⟨inner, groups, behind⟩ := cut_cons starts second rest
      rw [behind] at later
      simp only [cut, behind] at member
      split at member
      · rcases List.mem_cons.mp member with rfl | member
        · simp
        · exact later group member
      · rename_i noStart
        rcases List.mem_cons.mp member with rfl | member
        · refine List.isChain_cons_cons.mpr ⟨by simpa using noStart, later _ List.mem_cons_self⟩
        · exact later group (List.mem_cons_of_mem _ member)

theorem followers_cons_subset (start : Instruction) (rest : List Instruction) :
    followers rest ⊆ followers (start :: rest) := by
  intro address member
  cases rest with
  | nil => simp [followers] at member
  | cons next rest =>
      simp only [followers]
      split
      · exact List.mem_cons_of_mem _ member
      · exact member

theorem followers_mem {first second : Instruction} (after : List Instruction)
    (terminates : first.flow.isTerminator = true) (before : List Instruction) :
    second.address ∈ followers (before ++ first :: second :: after) := by
  induction before with
  | nil => simp [followers, terminates]
  | cons start before ih => exact followers_cons_subset start _ ih

theorem followers_place {address : Int} : ∀ {body : List Instruction}, address ∈ followers body →
    ∃ before first second after, body = before ++ first :: second :: after ∧
      first.flow.isTerminator = true ∧ second.address = address
  | [], member => by simp [followers] at member
  | [_], member => by simp [followers] at member
  | first :: second :: rest, member => by
      have later : address ∈ followers (second :: rest) →
          ∃ before earlier next after, first :: second :: rest = before ++ earlier :: next :: after ∧
            earlier.flow.isTerminator = true ∧ next.address = address := by
        intro member
        obtain ⟨before, earlier, next, after, place, facts⟩ := followers_place member
        exact ⟨first :: before, earlier, next, after, by rw [place, List.cons_append], facts⟩
      simp only [followers] at member
      split at member
      · rename_i terminates
        rcases List.mem_cons.mp member with rfl | member
        · exact ⟨[], first, second, rest, rfl, terminates, rfl⟩
        · exact later member
      · exact later member

theorem mem_take_one {α : Type} {items : List α} {place : α → Int} {address : Int} :
    address ∈ (items.take 1).map place ↔
      ∃ first, items.head? = some first ∧ place first = address := by
  cases items with
  | nil => simp
  | cons first rest => simp [eq_comm]

/-- Leaders are the first address, those after a terminator, and the targets of terminators. -/
theorem mem_leaders {body : List Instruction} {address : Int} :
    address ∈ leaders body ↔
      (∃ first, body.head? = some first ∧ first.address = address) ∨
      (∃ before previous here after, body = before ++ previous :: here :: after ∧
        previous.flow.isTerminator = true ∧ here.address = address) ∨
      (∃ source ∈ body, source.flow.isTerminator = true ∧ address ∈ source.targets ∧
        address ∈ addresses body) := by
  have after : address ∈ followers body ↔
      ∃ before previous here after, body = before ++ previous :: here :: after ∧
        previous.flow.isTerminator = true ∧ here.address = address := by
    constructor
    · exact followers_place
    · rintro ⟨before, previous, here, after, rfl, terminates, rfl⟩
      exact followers_mem after terminates before
  have target : address ∈ innerTargets body ↔
      ∃ source ∈ body, source.flow.isTerminator = true ∧ address ∈ source.targets ∧
        address ∈ addresses body := by
    simp only [innerTargets, List.mem_filter, List.mem_flatMap, List.contains_iff_mem]
    constructor
    · rintro ⟨⟨source, ⟨isSource, terminates⟩, isTarget⟩, inside⟩
      exact ⟨source, isSource, terminates, isTarget, inside⟩
    · rintro ⟨source, isSource, terminates, isTarget, inside⟩
      exact ⟨⟨source, ⟨isSource, terminates⟩, isTarget⟩, inside⟩
  rw [leaders, List.mem_append, List.mem_append, mem_take_one, after, target, or_assoc]

/-- Control leaves a group at its end only. -/
theorem cut_inner {body group : List Instruction} (isGroup : group ∈ cut (leaders body) body)
    {first second : Instruction} (adjacent : [first, second] <:+: group) :
    first.flow.isTerminator = false := by
  have chain := List.IsChain.infix (cut_isChain (leaders body) body group isGroup) adjacent
  have noLeader : second.address ∉ leaders body := (List.isChain_cons_cons.mp chain).1
  have whole : [first, second] <:+: body := by
    have inBody := List.infix_of_mem_flatten isGroup
    rw [flatten_cut] at inBody
    exact adjacent.trans inBody
  obtain ⟨before, after, place⟩ := whole
  by_contra terminates
  apply noLeader
  have follows : second.address ∈ followers (before ++ first :: second :: after) :=
    followers_mem after (by simpa using terminates) before
  have split : before ++ first :: second :: after = body := by simpa using place
  rw [split] at follows
  exact List.mem_append_left _ (List.mem_append_right _ follows)

theorem blocksOf_instructions {inside : List Int} : ∀ {groups : List (List Instruction)},
    (∀ group ∈ groups, group ≠ []) →
    (blocksOf inside groups).map CodeBlock.instructions = groups := by
  intro groups
  induction groups with
  | nil =>
      intro _
      rfl
  | cons group rest ih =>
      intro filled
      have tail := ih fun other member => filled other (List.mem_cons_of_mem _ member)
      obtain ⟨first, others, rfl⟩ := List.exists_cons_of_ne_nil (filled group List.mem_cons_self)
      simp only [blocksOf, List.head?_cons, List.getLast?_cons, List.map_cons, tail]

theorem head?_flatten {groups : List (List Instruction)} (filled : ∀ group ∈ groups, group ≠ []) :
    groups.flatten.head? = groups.head?.bind List.head? := by
  cases groups with
  | nil => rfl
  | cons group rest =>
      obtain ⟨first, others, rfl⟩ := List.exists_cons_of_ne_nil (filled group List.mem_cons_self)
      rfl

/-- Where a block lies in a body: what is before it and after it, and its instructions up to the last
one. -/
structure Placed (body : List Instruction) (block : CodeBlock)
    (before inner : List Instruction) (last : Instruction) (after : List Instruction) : Prop where
  body_eq : body = before ++ block.instructions ++ after
  instructions_eq : block.instructions = inner ++ [last]
  starts : block.instructions.head?.map Instruction.address = some block.address
  exits_eq : block.exits = exits (addresses body) last (after.head?.map Instruction.address)
  goes_on : ∀ first second, [first, second] <:+: block.instructions →
    first.flow.isTerminator = false

namespace Placed

variable {body before inner after : List Instruction} {block : CodeBlock} {last : Instruction}
  (placed : Placed body block before inner last after)

include placed

theorem lastFlow?_eq : block.lastFlow? = some last.flow := by
  rw [CodeBlock.lastFlow?, placed.instructions_eq, List.getLast?_concat, Option.map_some]

theorem inner_place {instruction : Instruction} (isInner : instruction ∈ inner) :
    ∃ front second rest, block.instructions = front ++ instruction :: second :: rest := by
  obtain ⟨front, back, split⟩ := List.append_of_mem isInner
  obtain ⟨second, rest, following⟩ : ∃ second rest, back ++ [last] = second :: rest :=
    List.exists_cons_of_ne_nil (by simp)
  refine ⟨front, second, rest, ?_⟩
  rw [placed.instructions_eq, split, ← following]
  simp

theorem inner_goes_on {instruction : Instruction} (isInner : instruction ∈ inner) :
    instruction.flow.isTerminator = false := by
  obtain ⟨front, second, rest, split⟩ := placed.inner_place isInner
  exact placed.goes_on instruction second ⟨front, rest, by simp [split]⟩

end Placed

/-- A stretch of code that begins at a start, holds no other start and lasts up to the next one. -/
structure Stretch (starts : List Int) (group after : List Instruction) : Prop where
  begins : ∃ first, group.head? = some first ∧ first.address ∈ starts
  inner : ∀ instruction ∈ group.tail, instruction.address ∉ starts
  ends : ∀ next, after.head? = some next → next.address ∈ starts

theorem cut_tail_begins (starts : List Int) : ∀ body : List Instruction,
    ∀ group ∈ (cut starts body).tail, ∃ first, group.head? = some first ∧ first.address ∈ starts
  | [], group, member => by simp [cut] at member
  | [_], group, member => by simp [cut] at member
  | first :: second :: rest, group, member => by
      have later := cut_tail_begins starts (second :: rest)
      obtain ⟨inner, groups, behind⟩ := cut_cons starts second rest
      rw [behind] at later
      simp only [cut, behind] at member
      split at member
      · rename_i isStart
        rcases List.mem_cons.mp member with rfl | member
        · exact ⟨second, rfl, by simpa using isStart⟩
        · exact later group member
      · exact later group member

theorem cut_begins (first : Instruction) (rest : List Instruction) {group : List Instruction}
    (isGroup : group ∈ cut (leaders (first :: rest)) (first :: rest)) :
    ∃ start, group.head? = some start ∧ start.address ∈ leaders (first :: rest) := by
  obtain ⟨inner, groups, cutting⟩ := cut_cons (leaders (first :: rest)) first rest
  have later := cut_tail_begins (leaders (first :: rest)) (first :: rest) group
  rw [cutting] at isGroup later
  rcases List.mem_cons.mp isGroup with rfl | isLater
  · exact ⟨first, rfl, by simp [leaders]⟩
  · exact later isLater

theorem cut_tail_inner (starts : List Int) (body : List Instruction) {group : List Instruction}
    (isGroup : group ∈ cut starts body) :
    ∀ instruction ∈ group.tail, instruction.address ∉ starts := by
  have chain := cut_isChain starts body group isGroup
  clear isGroup
  induction group with
  | nil => simp
  | cons first rest ih =>
      cases rest with
      | nil => simp
      | cons second rest =>
          obtain ⟨noStart, later⟩ := List.isChain_cons_cons.mp chain
          intro instruction member
          rcases List.mem_cons.mp member with rfl | member
          · exact noStart
          · exact ih later instruction member

/-- A cut goes through at every start. -/
theorem cut_append {starts : List Int} {start : Instruction} (isStart : start.address ∈ starts)
    (rest : List Instruction) : ∀ before : List Instruction,
    cut starts (before ++ start :: rest) = cut starts before ++ cut starts (start :: rest)
  | [] => rfl
  | [first] => by
      obtain ⟨group, groups, behind⟩ := cut_cons starts start rest
      simp [cut, behind, isStart]
  | first :: second :: before => by
      have later := cut_append isStart rest (second :: before)
      obtain ⟨group, groups, behind⟩ := cut_cons starts second before
      simp only [List.cons_append, behind] at later
      simp only [List.cons_append, cut, later, behind]
      split
      · rfl
      · rfl

theorem cut_whole {starts : List Int} : ∀ {group : List Instruction}, group ≠ [] →
    (∀ instruction ∈ group.tail, instruction.address ∉ starts) → cut starts group = [group]
  | [], filled, _ => absurd rfl filled
  | [_], _, _ => rfl
  | first :: second :: rest, _, inner => by
      have later : cut starts (second :: rest) = [second :: rest] := by
        apply cut_whole (by simp)
        intro instruction member
        exact inner instruction (List.mem_cons_of_mem _ member)
      have noStart : second.address ∉ starts := inner second (by simp)
      simp [cut, later, noStart]

theorem cut_stretch {starts : List Int} {group after : List Instruction}
    (stretch : Stretch starts group after) (before : List Instruction) :
    cut starts (before ++ group ++ after) = cut starts before ++ group :: cut starts after := by
  obtain ⟨first, head, isStart⟩ := stretch.begins
  obtain ⟨rest, rfl⟩ : ∃ rest, group = first :: rest := List.head?_eq_some_iff.mp head
  have whole := cut_whole (List.cons_ne_nil first rest) stretch.inner
  rw [List.append_assoc, List.cons_append, cut_append isStart]
  congr 1
  cases after with
  | nil => simpa [cut] using whole
  | cons next after =>
      rw [← List.cons_append, cut_append (stretch.ends next rfl), whole]
      rfl

/-- Every block has its place in the body, where it is a stretch between leaders. -/
theorem looseBlocks_stretch {body : List Instruction} {block : CodeBlock}
    (isBlock : block ∈ looseBlocks body) :
    ∃ before inner last after, Placed body block before inner last after ∧
      Stretch (leaders body) block.instructions after := by
  obtain ⟨before, after, start, last, place, head, final, address, out⟩ := blocksOf_place isBlock
  have filled := cut_ne_nil (leaders body) body
  have isGroup : block.instructions ∈ cut (leaders body) body := by simp [place]
  have next : after.flatten.head? = after.head?.bind List.head? :=
    head?_flatten fun group member => filled group (by simp [place, member])
  have whole := flatten_cut (leaders body) body
  obtain ⟨inner, split⟩ := List.getLast?_eq_some_iff.mp final
  refine ⟨before.flatten, inner, last, after.flatten, ?_, ?_⟩
  · refine ⟨?_, split, ?_, ?_, fun first second => cut_inner isGroup⟩
    · rw [← whole, place]
      simp
    · rw [head, Option.map_some, address]
    · rw [out, next, Option.map_bind]
      rfl
  · refine ⟨?_, cut_tail_inner _ _ isGroup, ?_⟩
    · cases body with
      | nil => simp [cut] at isGroup
      | cons first rest => exact cut_begins first rest isGroup
    · intro following isNext
      rw [next] at isNext
      obtain ⟨group, isHead, starts⟩ := Option.bind_eq_some_iff.mp isNext
      have isLater : group ∈ (cut (leaders body) body).tail := by
        rw [place]
        cases before with
        | nil => exact List.mem_of_mem_head? isHead
        | cons _ before => simp [List.mem_of_mem_head? isHead]
      obtain ⟨first, isFirst, isStart⟩ := cut_tail_begins _ _ group isLater
      rw [isFirst, Option.some.injEq] at starts
      rwa [← starts]

theorem looseBlocks_placed {body : List Instruction} {block : CodeBlock}
    (isBlock : block ∈ looseBlocks body) :
    ∃ before inner last after, Placed body block before inner last after := by
  obtain ⟨before, inner, last, after, placed, _⟩ := looseBlocks_stretch isBlock
  exact ⟨before, inner, last, after, placed⟩

theorem mem_blocksOf (inside : List Int) {group : List Instruction} {first last : Instruction}
    (head : group.head? = some first) (final : group.getLast? = some last)
    (after : List (List Instruction)) : ∀ before : List (List Instruction),
    { address := first.address, instructions := group
      exits := exits inside last
        (after.head?.bind fun following => following.head?.map Instruction.address) } ∈
      blocksOf inside (before ++ group :: after) := by
  intro before
  induction before with
  | nil => simp [blocksOf, head, final]
  | cons here before ih =>
      simp only [List.cons_append, blocksOf]
      split
      · exact List.mem_cons_of_mem _ ih
      · exact ih

/-- Every stretch between leaders is a block. -/
theorem mem_looseBlocks {body before inner after : List Instruction} {block : CodeBlock}
    {last : Instruction} (placed : Placed body block before inner last after)
    (stretch : Stretch (leaders body) block.instructions after) : block ∈ looseBlocks body := by
  obtain ⟨first, head, _⟩ := stretch.begins
  have final : block.instructions.getLast? = some last := by
    rw [placed.instructions_eq, List.getLast?_concat]
  have next : ((cut (leaders body) after).head?.bind fun following =>
      following.head?.map Instruction.address) = after.head?.map Instruction.address := by
    cases after with
    | nil => rfl
    | cons following after =>
        obtain ⟨group, groups, start⟩ := cut_cons (leaders body) following after
        rw [start]
        rfl
  have address : first.address = block.address := by
    have starts := placed.starts
    rw [head, Option.map_some, Option.some.injEq] at starts
    exact starts
  have isBlock := mem_blocksOf (addresses body) head final (cut (leaders body) after)
    (cut (leaders body) before)
  rw [← cut_stretch stretch, ← placed.body_eq, next, ← placed.exits_eq, address] at isBlock
  exact isBlock

theorem mem_blockAddresses {body : List Instruction} {address : Int} :
    address ∈ (looseBlocks body).map CodeBlock.address ↔ address ∈ leaders body := by
  constructor
  · intro member
    obtain ⟨block, isBlock, rfl⟩ := List.mem_map.mp member
    obtain ⟨_, _, _, _, placed, stretch⟩ := looseBlocks_stretch isBlock
    obtain ⟨first, head, isStart⟩ := stretch.begins
    have starts := placed.starts
    rw [head, Option.map_some, Option.some.injEq] at starts
    rwa [← starts]
  · intro isLeader
    obtain ⟨instruction, member, rfl⟩ := List.mem_map.mp (leaders_subset body isLeader)
    obtain ⟨group, isGroup, head⟩ := cut_starts isLeader body member
    exact blocksOf_address head isGroup

theorem looseBlocks_instructions (body : List Instruction) :
    (looseBlocks body).flatMap CodeBlock.instructions = body := by
  rw [List.flatMap_def, looseBlocks, blocksOf_instructions (cut_ne_nil _ body), flatten_cut]

theorem looseBlocks_ne_nil {body : List Instruction} (nonempty : body ≠ []) :
    looseBlocks body ≠ [] := by
  intro empty
  apply nonempty
  rw [← looseBlocks_instructions body, empty, List.flatMap_nil]

/-- Where every indirect jump has a target in the body, nothing is left to be connected. -/
theorem split_eq_looseBlocks {body : List Instruction}
    (resolved : ∀ instruction ∈ body, instruction.flow = .indirectJump →
      ∃ target ∈ instruction.targets, target ∈ addresses body) :
    split body = looseBlocks body := by
  have none' : ∀ block ∈ looseBlocks body, isUnresolved block = false := by
    intro block isBlock
    obtain ⟨before, inner, last, after, placed⟩ := looseBlocks_placed isBlock
    by_contra unresolved
    simp only [isUnresolved, placed.lastFlow?_eq, Bool.and_eq_true, decide_eq_true_eq, Option.some.injEq,
      List.isEmpty_iff, Bool.not_eq_false] at unresolved
    have member : last ∈ body := by simp [placed.body_eq, placed.instructions_eq]
    obtain ⟨target, isTarget, inside⟩ := resolved last member unresolved.1
    have isExit : ({ target := target, kind := .indirect } : Exit) ∈ block.exits := by
      simp [placed.exits_eq, exits, namedExits, unresolved.1, isTarget, inside]
    simp [unresolved.2] at isExit
  rw [split, connectOrphans_eq,
    List.map_congr_left fun block isBlock => if_neg (by simp [none' block isBlock])]
  simp

end FlowAlign.Code
