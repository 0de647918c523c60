import FlowAlign.Code.Block

/-!
Every way out of a block leads to a block. Targets inside a body are leaders, and a body is cut before
every leader, so that no exit ends in the middle of a block.
-/

namespace FlowAlign.Code

/-- The exits of all blocks lead to blocks. -/
def Closed (blocks : List CodeBlock) : Prop :=
  ∀ block ∈ blocks, ∀ exit ∈ block.exits, exit.target ∈ blocks.map CodeBlock.address

theorem followers_subset : ∀ body : List Instruction, followers body ⊆ addresses body
  | [] => by simp [followers]
  | [_] => by simp [followers]
  | first :: second :: rest => by
      have later := followers_subset (second :: rest)
      intro address member
      simp only [followers] at member
      split at member
      · rcases List.mem_cons.mp member with rfl | member
        · simp [addresses]
        · exact List.mem_cons_of_mem _ (later member)
      · exact List.mem_cons_of_mem _ (later member)

theorem leaders_subset (body : List Instruction) : leaders body ⊆ addresses body := by
  intro address member
  simp only [leaders, List.mem_append] at member
  rcases member with (first | follower) | target
  · exact List.map_subset _ (List.take_subset 1 body) first
  · exact followers_subset body follower
  · simpa using (List.mem_filter.mp target).2

theorem flatten_cut (starts : List Int) : ∀ body : List Instruction,
    (cut starts body).flatten = body
  | [] => rfl
  | [_] => rfl
  | first :: second :: rest => by
      have later := flatten_cut starts (second :: rest)
      simp only [cut]
      revert later
      cases cut starts (second :: rest) with
      | nil => simp
      | cons group groups =>
          intro later
          dsimp only
          split
          · simpa using later
          · simpa using later

theorem cut_cons (starts : List Int) (first : Instruction) (rest : List Instruction) :
    ∃ group groups, cut starts (first :: rest) = (first :: group) :: groups := by
  cases rest with
  | nil => exact ⟨[], [], rfl⟩
  | cons second rest =>
      simp only [cut]
      split
      · exact ⟨[], [], rfl⟩
      · rename_i group groups _
        split
        · exact ⟨[], group :: groups, rfl⟩
        · exact ⟨group, groups, rfl⟩

theorem cut_starts {starts : List Int} {instruction : Instruction}
    (isStart : instruction.address ∈ starts) : ∀ body : List Instruction, instruction ∈ body →
    ∃ group ∈ cut starts body, group.head? = some instruction
  | [], member => by simp at member
  | [last], member => by
      rw [List.mem_singleton.mp member]
      exact ⟨[last], by simp [cut], rfl⟩
  | first :: second :: rest, member => by
      obtain ⟨group, groups, behind⟩ := cut_cons starts second rest
      have later := cut_starts isStart (second :: rest)
      rw [behind] at later
      simp only [cut, behind]
      rcases List.mem_cons.mp member with rfl | member
      · split
        · exact ⟨[instruction], by simp, rfl⟩
        · exact ⟨instruction :: second :: group, by simp, rfl⟩
      · obtain ⟨found, isGroup, head⟩ := later member
        split
        · exact ⟨found, List.mem_cons_of_mem _ isGroup, head⟩
        · rename_i noStart
          rcases List.mem_cons.mp isGroup with rfl | isGroup
          · obtain rfl : second = instruction := by simpa using head
            simp [isStart] at noStart
          · exact ⟨found, List.mem_cons_of_mem _ isGroup, head⟩

/-- Where a block comes from: a group, whose last instruction decides about the exits. -/
structure FromGroup (inside : List Int) (groups : List (List Instruction)) (block : CodeBlock)
    (first last : Instruction) (next : Option Int) : Prop where
  group : block.instructions ∈ groups
  head : block.instructions.head? = some first
  final : block.instructions.getLast? = some last
  address_eq : block.address = first.address
  exits_eq : block.exits = exits inside last next
  following : ∀ address, next = some address →
    ∃ group ∈ groups, group.head?.map Instruction.address = some address

/-- A block is one of the groups, with the start of the group after it as the next address. -/
theorem blocksOf_place {inside : List Int} : ∀ {groups : List (List Instruction)} {block : CodeBlock},
    block ∈ blocksOf inside groups →
    ∃ before after first last, groups = before ++ block.instructions :: after ∧
      block.instructions.head? = some first ∧ block.instructions.getLast? = some last ∧
      block.address = first.address ∧
      block.exits = exits inside last
        (after.head?.bind fun following => following.head?.map Instruction.address) := by
  intro groups
  induction groups with
  | nil =>
      intro block member
      simp [blocksOf] at member
  | cons group rest ih =>
      intro block member
      have later : block ∈ blocksOf inside rest →
          ∃ before after first last, group :: rest = before ++ block.instructions :: after ∧
            block.instructions.head? = some first ∧ block.instructions.getLast? = some last ∧
            block.address = first.address ∧
            block.exits = exits inside last
              (after.head?.bind fun following => following.head?.map Instruction.address) := by
        intro member
        obtain ⟨before, after, first, last, place, facts⟩ := ih member
        exact ⟨group :: before, after, first, last, by rw [place, List.cons_append], facts⟩
      simp only [blocksOf] at member
      split at member
      · rename_i first last head final
        rcases List.mem_cons.mp member with rfl | member
        · exact ⟨[], rest, first, last, rfl, head, final, rfl, rfl⟩
        · exact later member
      · exact later member

theorem blocksOf_group {inside : List Int} {groups : List (List Instruction)} {block : CodeBlock}
    (member : block ∈ blocksOf inside groups) :
    ∃ first last next, FromGroup inside groups block first last next := by
  obtain ⟨before, after, first, last, place, head, final, address, out⟩ := blocksOf_place member
  refine ⟨first, last, _, by simp [place], head, final, address, out, ?_⟩
  intro start isNext
  obtain ⟨following, isHead, starts⟩ := Option.bind_eq_some_iff.mp isNext
  have isGroup : following ∈ after := List.mem_of_mem_head? isHead
  exact ⟨following, by simp [place, isGroup], starts⟩

theorem blocksOf_address {inside : List Int} {group : List Instruction} {first : Instruction}
    (head : group.head? = some first) : ∀ {groups : List (List Instruction)}, group ∈ groups →
    first.address ∈ (blocksOf inside groups).map CodeBlock.address := by
  intro groups
  induction groups with
  | nil =>
      intro member
      simp at member
  | cons here rest ih =>
      intro member
      rcases List.mem_cons.mp member with rfl | member
      · obtain ⟨last, final⟩ : ∃ last, group.getLast? = some last := by
          cases group with
          | nil => simp at head
          | cons start rest => exact ⟨_, List.getLast?_cons⟩
        simp [blocksOf, head, final]
      · have later := ih member
        simp only [blocksOf]
        split
        · exact List.mem_cons_of_mem _ later
        · exact later

theorem toward_target {kind : EdgeKind} {target : Option Int} {exit : Exit}
    (member : exit ∈ target.toList.map fun address => ({ target := address, kind := kind } : Exit)) :
    target = some exit.target := by
  obtain ⟨address, isTarget, rfl⟩ := List.mem_map.mp member
  simpa using isTarget

theorem namedExits_target {last : Instruction} {next : Option Int} {exit : Exit}
    (member : exit ∈ namedExits last next) :
    (last.flow.isTerminator = true ∧ exit.target ∈ last.targets) ∨ next = some exit.target := by
  simp only [namedExits] at member
  cases flow : last.flow <;> simp only [flow] at member
  case sequential => exact Or.inr (toward_target member)
  case call => exact Or.inr (toward_target member)
  case ret => simp at member
  case trap => simp at member
  case jump => exact Or.inl ⟨rfl, List.mem_of_mem_head? (toward_target member)⟩
  case indirectJump =>
    obtain ⟨address, isTarget, rfl⟩ := List.mem_map.mp member
    exact Or.inl ⟨rfl, isTarget⟩
  case switch =>
    obtain ⟨⟨address, value⟩, isCase, rfl⟩ := List.mem_map.mp member
    exact Or.inl ⟨rfl, (List.of_mem_zip isCase).1⟩
  case condJump =>
    rcases List.mem_append.mp member with taken | other
    · exact Or.inl ⟨rfl, List.mem_of_mem_head? (toward_target taken)⟩
    · have target := toward_target other
      split at target
      · exact Or.inl ⟨rfl, List.mem_of_getElem? target⟩
      · exact Or.inr target
  case callWithUnwind =>
    rcases List.mem_append.mp member with normal | unwinding
    · have target := toward_target normal
      split at target
      · exact Or.inr target
      · exact Or.inl ⟨rfl, List.mem_of_mem_head? target⟩
    · obtain ⟨address, isTarget, rfl⟩ := List.mem_map.mp unwinding
      exact Or.inl ⟨rfl, List.mem_of_mem_drop isTarget⟩

theorem exits_inside {inside : List Int} {last : Instruction} {next : Option Int} {exit : Exit}
    (member : exit ∈ exits inside last next) : exit.target ∈ inside := by
  simp only [exits, List.mem_eraseDups, List.mem_filter] at member
  simpa using member.2

theorem exits_target {inside : List Int} {last : Instruction} {next : Option Int} {exit : Exit}
    (member : exit ∈ exits inside last next) :
    (last.flow.isTerminator = true ∧ exit.target ∈ last.targets) ∨ next = some exit.target := by
  simp only [exits, List.mem_eraseDups, List.mem_filter] at member
  exact namedExits_target member.1

theorem looseBlocks_closed (body : List Instruction) : Closed (looseBlocks body) := by
  intro block isBlock exit isExit
  obtain ⟨first, last, next, source⟩ := blocksOf_group isBlock
  rw [source.exits_eq] at isExit
  have inside := exits_inside isExit
  rcases exits_target isExit with ⟨terminates, isTarget⟩ | isNext
  · have lastMember : last ∈ body := by
      rw [← flatten_cut (leaders body) body]
      exact List.mem_flatten.mpr ⟨_, source.group, List.mem_of_getLast? source.final⟩
    have isLeader : exit.target ∈ leaders body := by
      refine List.mem_append_right _ (List.mem_filter.mpr ⟨?_, by simpa using inside⟩)
      exact List.mem_flatMap.mpr ⟨last, List.mem_filter.mpr ⟨lastMember, terminates⟩, isTarget⟩
    obtain ⟨instruction, member, atTarget⟩ := List.mem_map.mp inside
    rw [← atTarget] at isLeader ⊢
    obtain ⟨group, isGroup, head⟩ := cut_starts isLeader body member
    exact blocksOf_address head isGroup
  · obtain ⟨group, isGroup, starts⟩ := source.following exit.target isNext
    obtain ⟨instruction, head, atTarget⟩ := Option.map_eq_some_iff.mp starts
    rw [← atTarget]
    exact blocksOf_address head isGroup

/-- Whether there are orphans or not, only unresolved jumps get new exits. -/
theorem connectOrphans_eq (blocks : List CodeBlock) :
    connectOrphans blocks = blocks.map fun block =>
      if isUnresolved block then
        { block with exits := (orphans blocks).map fun address =>
            { target := address, kind := .indirect } }
      else block := by
  simp only [connectOrphans]
  split
  · rename_i none'
    rw [List.isEmpty_iff] at none'
    symm
    rw [List.map_congr_left, List.map_id]
    intro block _
    split
    · rename_i unresolved
      simp only [isUnresolved, Bool.and_eq_true, List.isEmpty_iff] at unresolved
      cases block
      simp_all
    · rfl
  · rfl

theorem connectOrphans_address (blocks : List CodeBlock) :
    (connectOrphans blocks).map CodeBlock.address = blocks.map CodeBlock.address := by
  rw [connectOrphans_eq, List.map_map]
  apply List.map_congr_left
  intro block _
  simp only [Function.comp_apply]
  split <;> rfl

theorem connectOrphans_instructions (blocks : List CodeBlock) :
    (connectOrphans blocks).map CodeBlock.instructions = blocks.map CodeBlock.instructions := by
  rw [connectOrphans_eq, List.map_map]
  apply List.map_congr_left
  intro block _
  simp only [Function.comp_apply]
  split <;> rfl

theorem connectOrphans_closed {blocks : List CodeBlock} (closed : Closed blocks) :
    Closed (connectOrphans blocks) := by
  intro block isBlock exit isExit
  rw [connectOrphans_address]
  rw [connectOrphans_eq] at isBlock
  obtain ⟨loose, isLoose, rfl⟩ := List.mem_map.mp isBlock
  split at isExit
  · obtain ⟨address, isOrphan, rfl⟩ := List.mem_map.mp isExit
    exact (List.mem_filter.mp isOrphan).1
  · exact closed loose isLoose exit isExit

theorem split_closed (body : List Instruction) : Closed (split body) :=
  connectOrphans_closed (looseBlocks_closed body)

theorem split_ne_nil {body : List Instruction} (nonempty : body ≠ []) : split body ≠ [] := by
  obtain ⟨first, rest, rfl⟩ := List.exists_cons_of_ne_nil nonempty
  obtain ⟨group, groups, start⟩ := cut_cons (leaders (first :: rest)) first rest
  have head : (first :: group).head? = some first := rfl
  have member : first.address ∈ (looseBlocks (first :: rest)).map CodeBlock.address :=
    blocksOf_address head (by simp [start])
  intro none'
  rw [← connectOrphans_address, ← split, none'] at member
  simp at member

end FlowAlign.Code
