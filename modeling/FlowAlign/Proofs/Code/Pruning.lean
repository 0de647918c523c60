import FlowAlign.Proofs.Code.Flow
import FlowAlign.Proofs.Code.Rearrangement

/-!
Code that control cannot reach. It is left out of a canonical graph, but it takes part in cutting the
body: a jump from dead code into the middle of a live block makes two blocks of it. That is the only
trace it leaves. A body and what is left of it without its dead code have the same blocks exactly when
no dead instruction jumps into the middle of a live block.
-/

namespace FlowAlign

namespace Code

/-- Whether control can get from the start of a body to an address. -/
def Live (body : List Instruction) (address : Int) : Prop :=
  ∃ first, body.head? = some first ∧ Relation.ReflTransGen (Flows body) first.address address

/-- No instruction that is left out jumps to one that stays, unless a block starts there anyway. -/
def Undisturbed (body live : List Instruction) : Prop :=
  ∀ dead ∈ body, dead ∉ live → dead.flow.isTerminator = true →
    ∀ target ∈ dead.targets, target ∈ addresses live → target ∈ leaders live

theorem Live.step {body : List Instruction} {source target : Int} (live : Live body source)
    (flows : Flows body source target) : Live body target := by
  obtain ⟨first, head, path⟩ := live
  exact ⟨first, head, path.tail flows⟩

def within (region : List Int) (instruction : Instruction) : Bool :=
  decide (instruction.address ∈ region)

/-- A region is what control can reach when it can reach all of it and cannot leave it. -/
theorem within_iff_live {body : List Instruction} {region : List Int}
    (reached : ∀ address ∈ region, Live body address)
    (begins : ∀ first, body.head? = some first → first.address ∈ region)
    (closed : ∀ source ∈ region, ∀ target ∈ steps body source, target ∈ region)
    (instruction : Instruction) :
    within region instruction = true ↔ Live body instruction.address := by
  rw [within, decide_eq_true_eq]
  constructor
  · exact reached instruction.address
  · rintro ⟨first, head, path⟩
    generalize instruction.address = address at path
    induction path with
    | refl => exact begins first head
    | tail _ flows inside => exact closed _ inside _ (mem_steps.mpr flows)

theorem destinations_target {instruction : Instruction} {next : Option Int} {target : Int}
    (goes : target ∈ destinations instruction next) :
    (instruction.flow.isTerminator = true ∧ target ∈ instruction.targets) ∨ next = some target := by
  rw [← namedExits_targets] at goes
  obtain ⟨exit, named, rfl⟩ := List.mem_map.mp goes
  exact namedExits_target named

/-- An instruction that does not go on to the next one names the same exits whatever comes next. -/
theorem namedExits_unused {last : Instruction} {unused : Int}
    (notTaken : unused ∉ destinations last (some unused)) (next : Option Int) :
    namedExits last (some unused) = namedExits last next := by
  rcases targets : last.targets with _ | ⟨taken, _ | ⟨other, rest⟩⟩
  all_goals
    cases flow : last.flow <;> simp [destinations, flow, targets] at notTaken <;>
      simp [namedExits, flow, targets]

/-- A live instruction behind a dead one is the target of a live terminator. -/
theorem live_target {body before after : List Instruction} {previous here : Instruction}
    (distinct : (addresses body).Nodup) (place : body = before ++ previous :: here :: after)
    (live : Live body here.address) (dead : ¬ Live body previous.address) :
    ∃ source ∈ body, source.flow.isTerminator = true ∧ here.address ∈ source.targets ∧
      Live body source.address := by
  obtain ⟨first, head, path⟩ := live
  have place' : body = (before ++ [previous]) ++ here :: after := by simp [place]
  rcases path.cases_tail with start | ⟨address, earlier, flows⟩
  · obtain ⟨rest, begins⟩ := List.head?_eq_some_iff.mp head
    have atStart : body = [] ++ first :: rest := begins
    obtain ⟨none', _⟩ := place_unique distinct atStart place' start
    simp at none'
  · generalize arrival : here.address = target at flows
    cases flows with
    | @step front source back _ sourcePlace goes _ =>
        rcases destinations_target goes with ⟨terminates, isTarget⟩ | isNext
        · exact ⟨source, by simp [sourcePlace], terminates, isTarget, first, head, earlier⟩
        · -- control came from the instruction before, which would be live then
          exfalso
          obtain ⟨next, behind, same⟩ := Option.map_eq_some_iff.mp isNext
          obtain ⟨rest, rfl⟩ := List.head?_eq_some_iff.mp behind
          have nextPlace : body = (front ++ [source]) ++ next :: rest := by simp [sourcePlace]
          obtain ⟨fronts, _, _⟩ := place_unique distinct place' nextPlace (same.trans arrival.symm)
          obtain rfl : previous = source := by simpa using (List.append_inj' fronts rfl).2
          exact dead ⟨first, head, earlier⟩

section Pruned

variable {body : List Instruction} {keep : Instruction → Bool}
  (isLive : ∀ instruction ∈ body, keep instruction = true ↔ Live body instruction.address)

include isLive

theorem mem_pruned {instruction : Instruction} :
    instruction ∈ body.filter keep ↔ instruction ∈ body ∧ Live body instruction.address := by
  rw [List.mem_filter]
  constructor
  · rintro ⟨member, kept⟩
    exact ⟨member, (isLive instruction member).mp kept⟩
  · rintro ⟨member, live⟩
    exact ⟨member, (isLive instruction member).mpr live⟩

theorem mem_pruned_addresses {address : Int} :
    address ∈ addresses (body.filter keep) ↔ address ∈ addresses body ∧ Live body address := by
  constructor
  · intro member
    obtain ⟨instruction, stays, rfl⟩ := List.mem_map.mp member
    obtain ⟨inside, live⟩ := (mem_pruned isLive).mp stays
    exact ⟨List.mem_map_of_mem inside, live⟩
  · rintro ⟨inside, live⟩
    obtain ⟨instruction, member, rfl⟩ := List.mem_map.mp inside
    exact List.mem_map_of_mem ((mem_pruned isLive).mpr ⟨member, live⟩)

theorem pruned_head : (body.filter keep).head? = body.head? := by
  cases body with
  | nil => rfl
  | cons first rest =>
      have kept := (isLive first List.mem_cons_self).mpr ⟨first, rfl, .refl⟩
      rw [List.filter_cons_of_pos kept]
      rfl

theorem pruned_place {before after : List Instruction} {here : Instruction}
    (place : body = before ++ here :: after) (live : Live body here.address) :
    body.filter keep = before.filter keep ++ here :: after.filter keep := by
  have kept := (isLive here (by simp [place])).mpr live
  rw [place, List.filter_append, List.filter_cons_of_pos kept]

theorem exits_pruned {before after : List Instruction} {last : Instruction}
    (place : body = before ++ last :: after) (live : Live body last.address) :
    exits (addresses (body.filter keep)) last ((after.filter keep).head?.map Instruction.address) =
      exits (addresses body) last (after.head?.map Instruction.address) := by
  have named : namedExits last ((after.filter keep).head?.map Instruction.address) =
      namedExits last (after.head?.map Instruction.address) := by
    cases after with
    | nil => rfl
    | cons next after =>
        by_cases kept : keep next = true
        · rw [List.filter_cons_of_pos kept]
          rfl
        · -- the next instruction is dead, so control does not go on to it
          symm
          apply namedExits_unused
          intro taken
          apply kept
          rw [isLive next (by simp [place])]
          exact live.step (.step place taken (by simp [place, addresses]))
  rw [exits, exits, named]
  congr 1
  apply List.filter_congr
  intro exit isExit
  rw [Bool.eq_iff_iff, List.contains_iff_mem, List.contains_iff_mem, mem_pruned_addresses isLive]
  constructor
  · exact fun stays => stays.1
  · intro inside
    refine ⟨inside, live.step (.step place ?_ inside)⟩
    rw [← namedExits_targets]
    exact List.mem_map_of_mem isExit

theorem resolved_pruned
    (resolved : ∀ instruction ∈ body, instruction.flow = .indirectJump →
      ∃ target ∈ instruction.targets, target ∈ addresses body) :
    ∀ instruction ∈ body.filter keep, instruction.flow = .indirectJump →
      ∃ target ∈ instruction.targets, target ∈ addresses (body.filter keep) := by
  intro instruction stays indirect
  obtain ⟨member, live⟩ := (mem_pruned isLive).mp stays
  obtain ⟨target, isTarget, inside⟩ := resolved instruction member indirect
  obtain ⟨before, after, place⟩ := List.append_of_mem member
  refine ⟨target, isTarget, (mem_pruned_addresses isLive).mpr ⟨inside, live.step ?_⟩⟩
  exact .step place (by simpa [destinations, indirect] using isTarget) inside

variable (distinct : (addresses body).Nodup)

include distinct

omit isLive in
theorem pruned_distinct : (addresses (body.filter keep)).Nodup :=
  distinct.sublist (List.filter_sublist.map _)

theorem leader_behind_dead {before after : List Instruction} {previous here : Instruction}
    (place : body = before ++ previous :: here :: after) (live : Live body here.address)
    (dead : keep previous ≠ true) : here.address ∈ leaders body := by
  rw [Ne, isLive previous (by simp [place])] at dead
  obtain ⟨source, isSource, jumps, isTarget, _⟩ := live_target distinct place live dead
  refine mem_leaders.mpr (Or.inr (Or.inr ⟨source, isSource, jumps, isTarget, ?_⟩))
  simp [place, addresses]

theorem leaders_pruned_subset : leaders (body.filter keep) ⊆ leaders body := by
  intro address isLeader
  rw [mem_leaders] at isLeader ⊢
  rcases isLeader with ⟨first, head, rfl⟩ | ⟨before, previous, here, after, place, terminates, rfl⟩ |
    ⟨source, isSource, terminates, isTarget, inside⟩
  · exact Or.inl ⟨first, pruned_head isLive ▸ head, rfl⟩
  · have stays : here ∈ body.filter keep := by simp [place]
    obtain ⟨member, live⟩ := (mem_pruned isLive).mp stays
    obtain ⟨front, back, split⟩ := List.append_of_mem member
    rcases List.eq_nil_or_concat front with rfl | ⟨front, prior, rfl⟩
    · exact Or.inl ⟨here, by simp [split], rfl⟩
    · have split' : body = front ++ prior :: here :: back := by simp [split]
      by_cases priorKept : keep prior = true
      · -- what stands before it in the body stands before it in what is left, so it terminates
        have left := pruned_place isLive split live
        rw [List.concat_eq_append, List.filter_append, List.filter_cons_of_pos priorKept] at left
        have place' : body.filter keep = (before ++ [previous]) ++ here :: after := by simp [place]
        obtain ⟨fronts, _, _⟩ := place_unique (pruned_distinct distinct) place' left rfl
        obtain rfl : previous = prior := by simpa using (List.append_inj' fronts rfl).2
        exact Or.inr (Or.inl ⟨front, previous, here, back, split', terminates, rfl⟩)
      · exact mem_leaders.mp (leader_behind_dead isLive distinct split' live priorKept)
  · exact Or.inr (Or.inr ⟨source, ((mem_pruned isLive).mp isSource).1, terminates, isTarget,
      ((mem_pruned_addresses isLive).mp inside).1⟩)

theorem leaders_pruned (undisturbed : Undisturbed body (body.filter keep)) {address : Int}
    (isLeader : address ∈ leaders body) (live : Live body address) :
    address ∈ leaders (body.filter keep) := by
  have stays := (mem_pruned_addresses isLive).mpr ⟨leaders_subset body isLeader, live⟩
  have jumpedTo : ∀ source ∈ body, source.flow.isTerminator = true → address ∈ source.targets →
      Live body source.address → address ∈ leaders (body.filter keep) := by
    intro source isSource jumps isTarget sourceLive
    exact mem_leaders.mpr (Or.inr (Or.inr ⟨source, (mem_pruned isLive).mpr ⟨isSource, sourceLive⟩,
      jumps, isTarget, stays⟩))
  rcases mem_leaders.mp isLeader with ⟨first, head, rfl⟩ |
    ⟨before, previous, here, after, place, terminates, rfl⟩ |
    ⟨source, isSource, terminates, isTarget, inside⟩
  · exact mem_leaders.mpr (Or.inl ⟨first, (pruned_head isLive).trans head, rfl⟩)
  · by_cases previousLive : Live body previous.address
    · have left := pruned_place isLive place previousLive
      have kept := (isLive here (by simp [place])).mpr live
      rw [List.filter_cons_of_pos kept] at left
      exact mem_leaders.mpr (Or.inr (Or.inl ⟨_, previous, here, _, left, terminates, rfl⟩))
    · obtain ⟨source, isSource, jumps, isTarget, sourceLive⟩ :=
        live_target distinct place live previousLive
      exact jumpedTo source isSource jumps isTarget sourceLive
  · by_cases sourceLive : Live body source.address
    · exact jumpedTo source isSource terminates isTarget sourceLive
    · have dead : source ∉ body.filter keep :=
        fun member => sourceLive ((mem_pruned isLive).mp member).2
      exact undisturbed source isSource dead terminates address isTarget stays

theorem stretch_pruned (undisturbed : Undisturbed body (body.filter keep))
    {before group after : List Instruction} (place : body = before ++ group ++ after)
    (live : ∀ instruction ∈ group, Live body instruction.address)
    (stretch : Stretch (leaders body) group after) :
    Stretch (leaders (body.filter keep)) group (after.filter keep) where
  begins := by
    obtain ⟨first, head, isLeader⟩ := stretch.begins
    exact ⟨first, head, leaders_pruned isLive distinct undisturbed isLeader
      (live first (List.mem_of_mem_head? head))⟩
  inner := by
    intro instruction member isLeader
    exact stretch.inner instruction member (leaders_pruned_subset isLive distinct isLeader)
  ends := by
    intro next isNext
    obtain ⟨rest, remaining⟩ := List.head?_eq_some_iff.mp isNext
    obtain ⟨skipped, back, rfl, dead, kept, _⟩ := List.filter_eq_cons_iff.mp remaining
    have nextLive := (isLive next (by simp [place])).mp kept
    refine leaders_pruned isLive distinct undisturbed ?_ nextLive
    rcases List.eq_nil_or_concat skipped with rfl | ⟨front, prior, rfl⟩
    · exact stretch.ends next rfl
    · have split : body = (before ++ group ++ front) ++ prior :: next :: back := by simp [place]
      exact leader_behind_dead isLive distinct split nextLive (by simpa using dead prior (by simp))

theorem looseBlocks_pruned (undisturbed : Undisturbed body (body.filter keep)) {block : CodeBlock}
    (isBlock : block ∈ looseBlocks body) (live : Live body block.address) :
    block ∈ looseBlocks (body.filter keep) := by
  obtain ⟨before, inner, last, after, placed, stretch⟩ := looseBlocks_stretch isBlock
  have all : ∀ instruction ∈ block.instructions, Live body instruction.address := by
    intro instruction member
    obtain ⟨first, head, path⟩ := live
    exact ⟨first, head, path.trans (placed.reaches (List.mem_map_of_mem member))⟩
  have kept : block.instructions.filter keep = block.instructions := by
    rw [List.filter_eq_self]
    intro instruction member
    exact (isLive instruction (by simp [placed.body_eq, member])).mpr (all instruction member)
  have placed' : Placed (body.filter keep) block (before.filter keep) inner last
      (after.filter keep) := by
    refine ⟨?_, placed.instructions_eq, placed.starts, ?_, placed.goes_on⟩
    · rw [placed.body_eq, List.filter_append, List.filter_append, kept]
    · rw [placed.exits_eq, exits_pruned isLive placed.last_place]
      exact all last (by simp [placed.instructions_eq])
  exact mem_looseBlocks placed' (stretch_pruned isLive distinct undisturbed placed.body_eq all stretch)

theorem holds_pruned (nonempty : body ≠ []) (undisturbed : Undisturbed body (body.filter keep)) :
    Holds (looseBlocks body) (looseBlocks (body.filter keep)) := by
  obtain ⟨first, rest, rfl⟩ := List.exists_cons_of_ne_nil nonempty
  have distinct' : ((looseBlocks ((first :: rest).filter keep)).map CodeBlock.address).Nodup :=
    looseBlocks_address_nodup (pruned_distinct distinct)
  have kept : ∀ position, Relation.ReflTransGen (Leads (looseBlocks (first :: rest))) 0 position →
      codeAt (looseBlocks (first :: rest)) position ∈
        looseBlocks ((first :: rest).filter keep) := by
    intro position path
    obtain ⟨below, reach⟩ := flows_of_leads path
    exact looseBlocks_pruned isLive distinct undisturbed
      (codeAt_mem below) ⟨first, rfl, reach⟩
  refine ⟨?_, looseBlocks_closed _, distinct', kept⟩
  -- both lists begin with the block at the first instruction, and it is in the second one only once
  have left : (first :: rest).filter keep = first :: rest.filter keep :=
    List.filter_cons_of_pos ((isLive first List.mem_cons_self).mpr ⟨first, rfl, .refl⟩)
  have start := codeAt_entry first (rest.filter keep)
  have filled := List.length_pos_iff.mpr (looseBlocks_ne_nil (List.cons_ne_nil first rest))
  have filled' := List.length_pos_iff.mpr
    (looseBlocks_ne_nil (List.cons_ne_nil first (rest.filter keep)))
  rw [← left] at start filled'
  rw [List.head?_eq_getElem?, List.head?_eq_getElem?, getElem?_codeAt filled, getElem?_codeAt filled']
  exact congrArg some (List.inj_on_of_nodup_map distinct'
    (codeAt_mem filled') (kept 0 .refl)
    (start.trans (codeAt_entry first rest).symm))

omit isLive in
theorem ordered_starts (nonempty : body ≠ []) {order : List Nat}
    (ordered : Ordered (looseBlocks body) order) {address : Int} :
    address ∈ order.map (fun position => (codeAt (looseBlocks body) position).address) ↔
      address ∈ leaders body ∧ Live body address := by
  obtain ⟨first, rest, rfl⟩ := List.exists_cons_of_ne_nil nonempty
  constructor
  · intro member
    obtain ⟨position, isPosition, rfl⟩ := List.mem_map.mp member
    obtain ⟨below, reach⟩ := flows_of_leads ((ordered.reached position).mp isPosition)
    have isBlock := codeAt_mem below
    exact ⟨mem_blockAddresses.mp (List.mem_map_of_mem isBlock), first, rfl, reach⟩
  · rintro ⟨isLeader, live⟩
    obtain ⟨start, isStart, path⟩ := live
    obtain rfl : first = start := by simpa using isStart
    obtain ⟨block, isBlock, rfl⟩ := List.mem_map.mp (mem_blockAddresses.mpr isLeader)
    obtain ⟨position, leads, inBlock⟩ := leads_of_flows distinct path
    have isPosition := (ordered.reached position).mpr leads
    obtain ⟨place, below, rfl⟩ := exists_codeAt isBlock
    obtain ⟨_, _, _, _, placed⟩ := looseBlocks_placed isBlock
    -- the address is in the block that is reached and in the one it starts, so these are the same
    have same := addressesAt_unique distinct (ordered.inside position isPosition) below inBlock
      placed.start_mem
    refine List.mem_map.mpr ⟨position, isPosition, ?_⟩
    rw [same]

/-- A jump from dead code into a live block makes one more block. -/
theorem fewer_blocks (nonempty : body ≠ []) {order : List Nat}
    (ordered : Ordered (looseBlocks body) order)
    (disturbed : ¬ Undisturbed body (body.filter keep)) :
    (looseBlocks (body.filter keep)).length < order.length := by
  simp only [Undisturbed, not_forall] at disturbed
  obtain ⟨dead, isDead, _, terminates, target, isTarget, stays, noLeader⟩ := disturbed
  obtain ⟨inside, targetLive⟩ := (mem_pruned_addresses isLive).mp stays
  have isLeader : target ∈ leaders body :=
    mem_leaders.mpr (Or.inr (Or.inr ⟨dead, isDead, terminates, isTarget, inside⟩))
  have once : (target :: (looseBlocks (body.filter keep)).map CodeBlock.address).Nodup := by
    refine List.nodup_cons.mpr ⟨?_, looseBlocks_address_nodup (pruned_distinct distinct)⟩
    rwa [mem_blockAddresses]
  have subset : target :: (looseBlocks (body.filter keep)).map CodeBlock.address ⊆
      order.map fun position => (codeAt (looseBlocks body) position).address := by
    intro address member
    rw [ordered_starts distinct nonempty ordered]
    rcases List.mem_cons.mp member with rfl | isStart
    · exact ⟨isLeader, targetLive⟩
    · have leads := mem_blockAddresses.mp isStart
      exact ⟨leaders_pruned_subset isLive distinct leads,
        ((mem_pruned_addresses isLive).mp (leaders_subset _ leads)).2⟩
  -- the target starts a live block and none of those that are left
  have bound := (once.subperm subset).length_le
  simp only [List.length_cons, List.length_map] at bound
  omega

end Pruned

end Code

namespace Function

/-- Taking out the code that control cannot reach leaves the blocks of a canonical graph as they are
exactly when none of it jumps into the middle of a live block. -/
theorem canonicalize_pruned (function pruned : Function) (body : List Instruction)
    (keep : Instruction → Bool) (name name' : String) (format : pruned.format = function.format)
    (hasBody : function.body.outcome = .ok body) (hasName : function.name.outcome = .ok name)
    (hasBody' : pruned.body.outcome = .ok (body.filter keep))
    (hasName' : pruned.name.outcome = .ok name') (nonempty : body ≠ [])
    (isLive : ∀ instruction ∈ body, keep instruction = true ↔ Code.Live body instruction.address)
    (resolved : ∀ instruction ∈ body, instruction.flow = .indirectJump →
      ∃ target ∈ instruction.targets, target ∈ Code.addresses body) :
    ∃ graph graph', function.canonicalize.outcome = .ok graph ∧
      pruned.canonicalize.outcome = .ok graph' ∧
      (graph'.blocks = graph.blocks ↔ Code.Undisturbed body (body.filter keep)) := by
  have distinct := body_nodup hasBody
  have distinct' := body_nodup hasBody'
  have nonempty' : body.filter keep ≠ [] := by
    intro empty
    have head := Code.pruned_head isLive
    rw [empty, List.head?_nil, eq_comm, List.head?_eq_none_iff] at head
    exact nonempty head
  obtain ⟨order, ordered⟩ := Code.exists_ordered (Code.looseBlocks_closed body)
    (Code.looseBlocks_address_nodup distinct) (Code.looseBlocks_ne_nil nonempty)
  obtain ⟨order', ordered'⟩ := Code.exists_ordered (Code.looseBlocks_closed (body.filter keep))
    (Code.looseBlocks_address_nodup distinct') (Code.looseBlocks_ne_nil nonempty')
  have hasTable := function.format.classes?_isSome
  have canonical := canonicalize_outcome hasBody hasName
  rw [Code.split_eq_looseBlocks resolved, ordered.build_outcome hasTable] at canonical
  have canonical' := canonicalize_outcome hasBody' hasName'
  rw [Code.split_eq_looseBlocks (Code.resolved_pruned isLive resolved), format,
    ordered'.build_outcome hasTable] at canonical'
  refine ⟨_, _, canonical, canonical', ?_⟩
  constructor
  · intro same
    by_contra disturbed
    have fewer := Code.fewer_blocks isLive distinct nonempty ordered disturbed
    have sizes := congrArg List.length same
    have size := Code.graphOf_size ordered.inside name function.format.family function.labels
      function.address
    have size' := Code.graphOf_size ordered'.inside name' function.format.family pruned.labels
      pruned.address
    have bound := ordered'.length_le
    rw [FlowGraph.size] at size size'
    omega
  · intro undisturbed
    have holds := Code.holds_pruned isLive distinct nonempty undisturbed
    obtain rfl : order' = order.map (Code.moveTo (Code.looseBlocks body) _) := by
      have linear := Code.linearize_holds ordered holds
      rw [ordered'.linear] at linear
      exact Except.ok.inj linear
    exact Code.graphOf_holds ordered holds _ _ _ _ _ _ _

/-- A loop around a return, and dead code between and behind them that jumps to starts of blocks. -/
def shadedBody : List Instruction :=
  [{ address := 0, mnemonic := "jne", text := "jne 4", flow := .condJump, targets := [4, 8] },
   { address := 2, mnemonic := "jmp", text := "jmp 8", flow := .jump, targets := [8] },
   { address := 4, mnemonic := "nop", text := "nop" },
   { address := 6, mnemonic := "jmp", text := "jmp rax", flow := .indirectJump, targets := [0, 4] },
   { address := 8, mnemonic := "ret", text := "ret", flow := .ret },
   { address := 9, mnemonic := "jmp", text := "jmp 4", flow := .jump, targets := [4] }]

def shadedFunction : Function :=
  { rawName := "shaded", name := pure "shaded", address := 0, format := .x64
    stream := pure shadedBody }

def litBody : List Instruction :=
  shadedBody.filter (Code.within [0, 4, 6, 8])

def litFunction : Function :=
  { shadedFunction with stream := pure litBody }

theorem shadedBody_live (instruction : Instruction) :
    Code.within [0, 4, 6, 8] instruction = true ↔ Code.Live shadedBody instruction.address := by
  refine Code.within_iff_live ?_ (by simp [shadedBody]) (by decide) instruction
  have start : Code.Live shadedBody 0 := ⟨_, rfl, .refl⟩
  have taken : Code.Live shadedBody 4 := start.step (by decide)
  intro address member
  simp only [List.mem_cons, List.not_mem_nil, or_false] at member
  rcases member with rfl | rfl | rfl | rfl
  · exact start
  · exact taken
  · exact taken.step (by decide)
  · exact start.step (by decide)

theorem canonicalize_pruned_shaded :
    shadedFunction.body.outcome = .ok shadedBody ∧ litFunction.body.outcome = .ok litBody ∧
    (∀ instruction, Code.within [0, 4, 6, 8] instruction = true ↔
      Code.Live shadedBody instruction.address) ∧
    Code.Undisturbed shadedBody litBody ∧
    ∃ graph graph', shadedFunction.canonicalize.outcome = .ok graph ∧
      litFunction.canonicalize.outcome = .ok graph' ∧
      (graph'.blocks = graph.blocks ↔ Code.Undisturbed shadedBody litBody) := by
  have hasBody : shadedFunction.body.outcome = .ok shadedBody := by rfl
  have hasBody' : litFunction.body.outcome = .ok litBody := by rfl
  have undisturbed : Code.Undisturbed shadedBody litBody := by
    unfold Code.Undisturbed
    decide
  refine ⟨hasBody, hasBody', shadedBody_live, undisturbed, ?_⟩
  exact canonicalize_pruned shadedFunction litFunction shadedBody (Code.within [0, 4, 6, 8]) "shaded"
    "shaded" rfl hasBody rfl hasBody' rfl (by decide)
    (fun instruction _ => shadedBody_live instruction) (by decide)

/-- A return that a dead jump leads to, right behind an instruction that goes on to it. -/
def strayBody : List Instruction :=
  [{ address := 0, mnemonic := "nop", text := "nop" },
   { address := 1, mnemonic := "ret", text := "ret", flow := .ret },
   { address := 2, mnemonic := "jmp", text := "jmp 1", flow := .jump, targets := [1] }]

def strayFunction : Function :=
  { rawName := "stray", name := pure "stray", address := 0, format := .x64
    stream := pure strayBody }

def settledBody : List Instruction :=
  strayBody.filter (Code.within [0, 1])

def settledFunction : Function :=
  { strayFunction with stream := pure settledBody }

theorem strayBody_live (instruction : Instruction) :
    Code.within [0, 1] instruction = true ↔ Code.Live strayBody instruction.address := by
  refine Code.within_iff_live ?_ (by simp [strayBody]) (by decide) instruction
  have start : Code.Live strayBody 0 := ⟨_, rfl, .refl⟩
  intro address member
  simp only [List.mem_cons, List.not_mem_nil, or_false] at member
  rcases member with rfl | rfl
  · exact start
  · exact start.step (by decide)

theorem strayBody_order : Code.linearize (Code.split strayBody) = .ok [0, 1] := by
  with_unfolding_all decide

theorem settledBody_order : Code.linearize (Code.split settledBody) = .ok [0] := by
  with_unfolding_all decide

/-- The dead jump makes two blocks of what is one without it. -/
theorem dead_jump_cuts :
    strayFunction.body.outcome = .ok strayBody ∧ settledFunction.body.outcome = .ok settledBody ∧
    settledFunction.format = strayFunction.format ∧
    (∀ instruction, Code.within [0, 1] instruction = true ↔
      Code.Live strayBody instruction.address) ∧
    (∀ instruction ∈ strayBody, instruction.flow ≠ .indirectJump) ∧
    ∃ graph graph', strayFunction.canonicalize.outcome = .ok graph ∧
      settledFunction.canonicalize.outcome = .ok graph' ∧ graph'.blocks ≠ graph.blocks := by
  have hasBody : strayFunction.body.outcome = .ok strayBody := by rfl
  have hasBody' : settledFunction.body.outcome = .ok settledBody := by rfl
  refine ⟨hasBody, hasBody', rfl, strayBody_live, by decide, _, _,
    canonicalize_linear hasBody rfl (by decide) strayBody_order,
    canonicalize_linear hasBody' rfl (by decide) settledBody_order, ?_⟩
  intro same
  have sizes := congrArg List.length same
  contradiction

end Function

end FlowAlign
