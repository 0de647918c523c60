import FlowAlign.Proofs.Code.Layout

/-!
Code that comes in groups. When every group ends in its only terminator and terminators aim at the
starts of groups, then the blocks of the code are these groups: each of them starts at a leader, and
no other instruction is one.
-/

namespace FlowAlign.Code

/-- Instructions of which the last one, and no other, is a terminator. -/
def Ended (group : List Instruction) : Prop :=
  ∃ inner last, group = inner ++ [last] ∧
    (∀ instruction ∈ inner, instruction.flow.isTerminator = false) ∧ last.flow.isTerminator = true

def heads (groups : List (List Instruction)) : List Int :=
  groups.filterMap fun group => group.head?.map Instruction.address

/-- Groups of instructions that are blocks, as their terminators are placed and aimed. -/
structure Structured (groups : List (List Instruction)) : Prop where
  ended : ∀ group ∈ groups, Ended group
  distinct : (addresses groups.flatten).Nodup
  aimed : ∀ instruction ∈ groups.flatten, instruction.flow.isTerminator = true →
    instruction.targets ⊆ heads groups
  /-- An indirect jump knows where it may lead. -/
  resolved : ∀ instruction ∈ groups.flatten, instruction.flow = .indirectJump →
    instruction.targets ≠ []

theorem Ended.ne_nil {group : List Instruction} (ended : Ended group) : group ≠ [] := by
  obtain ⟨inner, last, rfl, _⟩ := ended
  simp

theorem followers_quiet {inner : List Instruction}
    (quiet : ∀ instruction ∈ inner, instruction.flow.isTerminator = false) (last : Instruction)
    (rest : List Instruction) : followers (inner ++ last :: rest) = followers (last :: rest) := by
  induction inner with
  | nil => rfl
  | cons first inner ih =>
      have goesOn := quiet first List.mem_cons_self
      have tail := ih fun instruction member => quiet instruction (List.mem_cons_of_mem _ member)
      rw [← tail]
      cases inner with
      | nil => simp [followers, goesOn]
      | cons second inner => simp [followers, goesOn]

theorem heads_cons (first : Instruction) (group : List Instruction)
    (groups : List (List Instruction)) :
    heads ((first :: group) :: groups) = first.address :: heads groups :=
  rfl

/-- Terminators are followed by the starts of the groups behind them. -/
theorem followers_flatten {groups : List (List Instruction)}
    (ended : ∀ group ∈ groups, Ended group) : followers groups.flatten = (heads groups).tail := by
  induction groups with
  | nil => rfl
  | cons group rest ih =>
      have later := ih fun other member => ended other (List.mem_cons_of_mem _ member)
      obtain ⟨inner, last, rfl, quiet, terminates⟩ := ended group List.mem_cons_self
      obtain ⟨first, others, isGroup⟩ : ∃ first others, inner ++ [last] = first :: others :=
        List.exists_cons_of_ne_nil (by simp)
      have start : (heads ((inner ++ [last]) :: rest)).tail = heads rest := by
        rw [isGroup, heads_cons, List.tail_cons]
      rw [List.flatten_cons, List.append_assoc, List.singleton_append, followers_quiet quiet, start]
      cases rest with
      | nil => rfl
      | cons next rest =>
          obtain ⟨second, others, rfl⟩ :=
            List.exists_cons_of_ne_nil (ended next (by simp)).ne_nil
          rw [heads_cons] at later ⊢
          simp only [List.flatten_cons, List.cons_append, List.tail_cons] at later ⊢
          rw [followers, if_pos terminates, later]

section Leaders

variable {groups : List (List Instruction)} (structured : Structured groups)

include structured

theorem Structured.leaders_subset : leaders groups.flatten ⊆ heads groups := by
  intro address member
  simp only [leaders, List.mem_append] at member
  rcases member with (first | follower) | target
  · obtain ⟨start, isHead, rfl⟩ := mem_take_one.mp first
    rw [head?_flatten fun group isGroup => (structured.ended group isGroup).ne_nil] at isHead
    obtain ⟨group, isGroup, isStart⟩ := Option.bind_eq_some_iff.mp isHead
    exact List.mem_filterMap.mpr ⟨group, List.mem_of_mem_head? isGroup, by rw [isStart]; rfl⟩
  · rw [followers_flatten structured.ended] at follower
    exact List.mem_of_mem_tail follower
  · obtain ⟨isTarget, _⟩ := List.mem_filter.mp target
    obtain ⟨source, isSource, isTarget⟩ := List.mem_flatMap.mp isTarget
    obtain ⟨inBody, terminates⟩ := List.mem_filter.mp isSource
    exact structured.aimed source inBody terminates isTarget

theorem Structured.heads_subset : heads groups ⊆ leaders groups.flatten := by
  intro address member
  cases groups with
  | nil => cases member
  | cons group rest =>
      obtain ⟨first, others, rfl⟩ :=
        List.exists_cons_of_ne_nil (structured.ended group List.mem_cons_self).ne_nil
      have follow := followers_flatten structured.ended
      rw [heads_cons] at member follow
      rcases List.mem_cons.mp member with rfl | later
      · simp [leaders]
      · rw [List.tail_cons] at follow
        rw [← follow] at later
        exact List.mem_append_left _ (List.mem_append_right _ later)

end Leaders

theorem heads_subset_addresses (groups : List (List Instruction)) :
    heads groups ⊆ addresses groups.flatten := by
  intro address member
  obtain ⟨group, isGroup, starts⟩ := List.mem_filterMap.mp member
  obtain ⟨first, isHead, rfl⟩ := Option.map_eq_some_iff.mp starts
  exact List.mem_map_of_mem (List.mem_flatten.mpr ⟨group, isGroup, List.mem_of_mem_head? isHead⟩)

/-- An instruction inside a group is not at the start of any. -/
theorem tail_notMem_heads {groups : List (List Instruction)}
    (distinct : (addresses groups.flatten).Nodup) : ∀ group ∈ groups,
    ∀ instruction ∈ group.tail, instruction.address ∉ heads groups := by
  induction groups with
  | nil => simp
  | cons group rest ih =>
      have spread : addresses (group :: rest).flatten =
          addresses group ++ addresses rest.flatten := by
        simp [addresses]
      rw [spread] at distinct
      obtain ⟨inGroup, inRest, apart⟩ := List.nodup_append.mp distinct
      intro other isOther instruction inTail isHead
      cases group with
      | nil =>
          rcases List.mem_cons.mp isOther with rfl | isOther
          · cases inTail
          · exact ih inRest other isOther instruction inTail isHead
      | cons first others =>
          rw [heads_cons] at isHead
          rcases List.mem_cons.mp isOther with rfl | isOther
          · have place : instruction.address ∈ addresses others := List.mem_map_of_mem inTail
            rcases List.mem_cons.mp isHead with same | later
            · rw [same] at place
              exact (List.nodup_cons.mp inGroup).1 place
            · exact apart _ (List.mem_cons_of_mem _ place) _ (heads_subset_addresses rest later) rfl
          · have place : instruction.address ∈ addresses rest.flatten :=
              List.mem_map_of_mem (List.mem_flatten.mpr ⟨other, isOther, List.mem_of_mem_tail inTail⟩)
            rcases List.mem_cons.mp isHead with same | later
            · exact apart _ List.mem_cons_self _ place same.symm
            · exact ih inRest other isOther instruction inTail later

/-- Groups that start at the starts and hold no other start are what a cut gives. -/
theorem cut_flatten {starts : List Int} : ∀ {groups : List (List Instruction)},
    (∀ group ∈ groups, ∃ first, group.head? = some first ∧ first.address ∈ starts) →
    (∀ group ∈ groups, ∀ instruction ∈ group.tail, instruction.address ∉ starts) →
    cut starts groups.flatten = groups := by
  intro groups
  induction groups with
  | nil =>
      intro _ _
      rfl
  | cons group rest ih =>
      intro begins inner
      have later := ih (fun other member => begins other (List.mem_cons_of_mem _ member))
        fun other member => inner other (List.mem_cons_of_mem _ member)
      have stretch : Stretch starts group rest.flatten := by
        refine ⟨begins group List.mem_cons_self, inner group List.mem_cons_self, ?_⟩
        intro next isNext
        have filled : ∀ other ∈ rest, other ≠ [] := by
          rintro _ member rfl
          obtain ⟨_, isHead, _⟩ := begins [] (List.mem_cons_of_mem _ member)
          cases isHead
        rw [head?_flatten filled] at isNext
        obtain ⟨other, isOther, isHead⟩ := Option.bind_eq_some_iff.mp isNext
        obtain ⟨first, isFirst, isStart⟩ :=
          begins other (List.mem_cons_of_mem _ (List.mem_of_mem_head? isOther))
        rw [isHead, Option.some.injEq] at isFirst
        exact isFirst ▸ isStart
      have cutting := cut_stretch stretch []
      rw [List.nil_append, later] at cutting
      exact cutting

section Blocks

variable {groups : List (List Instruction)} (structured : Structured groups)

include structured

theorem Structured.cut_eq : cut (leaders groups.flatten) groups.flatten = groups := by
  apply cut_flatten
  · intro group isGroup
    obtain ⟨first, others, rfl⟩ :=
      List.exists_cons_of_ne_nil (structured.ended group isGroup).ne_nil
    exact ⟨first, rfl, structured.heads_subset (List.mem_filterMap.mpr ⟨_, isGroup, rfl⟩)⟩
  · intro group isGroup instruction inTail isLeader
    exact tail_notMem_heads structured.distinct group isGroup instruction inTail
      (structured.leaders_subset isLeader)

theorem Structured.exits_eq {block : CodeBlock} {before inner after : List Instruction}
    {last : Instruction} (placed : Placed groups.flatten block before inner last after) :
    block.exits = (namedExits last (after.head?.map Instruction.address)).eraseDups := by
  have inBody : last ∈ groups.flatten := by
    rw [placed.body_eq, placed.instructions_eq]
    simp
  rw [placed.exits_eq, exits, List.filter_eq_self.mpr]
  intro exit named
  rw [List.contains_iff_mem]
  rcases namedExits_target named with ⟨terminates, isTarget⟩ | isNext
  · exact heads_subset_addresses groups (structured.aimed last inBody terminates isTarget)
  · obtain ⟨next, isHead, same⟩ := Option.map_eq_some_iff.mp isNext
    rw [← same]
    refine List.mem_map_of_mem ?_
    rw [placed.body_eq]
    exact List.mem_append_right _ (List.mem_of_mem_head? isHead)

/-- The blocks of structured code are its groups, left by the ways that their last instructions
name. -/
theorem Structured.split_eq :
    (split groups.flatten).map CodeBlock.instructions = groups ∧
    ∀ block ∈ split groups.flatten, ∃ inner last next, block.instructions = inner ++ [last] ∧
      block.instructions.head?.map Instruction.address = some block.address ∧
      block.exits = (namedExits last next).eraseDups := by
  have clear : ∀ block ∈ looseBlocks groups.flatten, isUnresolved block = false := by
    intro block isBlock
    obtain ⟨before, inner, last, after, placed, _⟩ := looseBlocks_stretch isBlock
    rw [isUnresolved, placed.lastFlow?_eq, structured.exits_eq placed, Bool.and_eq_false_iff]
    by_cases indirect : last.flow = .indirectJump
    · right
      have inBody : last ∈ groups.flatten := by
        rw [placed.body_eq, placed.instructions_eq]
        simp
      have known := structured.resolved last inBody indirect
      obtain ⟨target, others, targets⟩ := List.exists_cons_of_ne_nil known
      simp [namedExits, indirect, targets, List.eraseDups_cons]
    · left
      simpa using indirect
  have same : split groups.flatten = looseBlocks groups.flatten := by
    rw [split, connectOrphans_eq]
    conv_rhs => rw [← List.map_id (looseBlocks groups.flatten)]
    apply List.map_congr_left
    intro block isBlock
    rw [clear block isBlock]
    rfl
  rw [same]
  refine ⟨?_, ?_⟩
  · rw [looseBlocks, structured.cut_eq]
    exact blocksOf_instructions fun group isGroup => (structured.ended group isGroup).ne_nil
  · intro block isBlock
    obtain ⟨before, inner, last, after, placed, _⟩ := looseBlocks_stretch isBlock
    exact ⟨inner, last, _, placed.instructions_eq, placed.starts, structured.exits_eq placed⟩

end Blocks

end FlowAlign.Code
