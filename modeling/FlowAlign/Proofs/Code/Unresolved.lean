import FlowAlign.Proofs.Code.Formation

/-!
Code behind a computed jump whose targets are not known. Such a jump is linked to the blocks that no
exit leads to, and so everything that control gets to from one of these is kept. A loop that is entered
by the jump alone is not kept: each of its blocks has an exit that leads to it, from inside the loop.
-/

namespace FlowAlign

namespace Code

/-- Where control comes in: the first address, and every address to which no instruction leads. -/
def Inlet (body : List Instruction) (address : Int) : Prop :=
  body.head?.map Instruction.address = some address ∨
    address ∈ addresses body ∧ ∀ source, ¬ Flows body source address

/-- Control gets to an address from a place where it comes in. -/
def Entered (body : List Instruction) (address : Int) : Prop :=
  ∃ inlet, Inlet body inlet ∧ Relation.ReflTransGen (Flows body) inlet address

theorem Entered.trans {body : List Instruction} {source target : Int} (entered : Entered body source)
    (onward : Relation.ReflTransGen (Flows body) source target) : Entered body target := by
  obtain ⟨inlet, isInlet, path⟩ := entered
  exact ⟨inlet, isInlet, path.trans onward⟩

theorem Entered.step {body : List Instruction} {source target : Int} (entered : Entered body source)
    (flows : Flows body source target) : Entered body target :=
  entered.trans (.single flows)

theorem Flows.source_mem {body : List Instruction} {source target : Int}
    (flows : Flows body source target) : source ∈ addresses body := by
  cases flows with
  | step place _ _ => simp [place, addresses]

/-- Going back from an address ends where control comes in, or goes round. -/
theorem exists_origin {body : List Instruction} {address current : Int} (trail : List Int)
    (once : trail.Nodup) (inside : trail ⊆ addresses body)
    (ahead : ∀ later ∈ trail, Relation.ReflTransGen (Flows body) current later)
    (isCurrent : current ∈ trail) (path : Relation.ReflTransGen (Flows body) current address) :
    ∃ origin, Relation.ReflTransGen (Flows body) origin address ∧
      (Inlet body origin ∨ Relation.TransGen (Flows body) origin origin) := by
  -- the trail holds the addresses passed so far, all of them ahead; each step back makes it longer
  by_cases isInlet : Inlet body current
  · exact ⟨current, path, Or.inl isInlet⟩
  · simp only [Inlet, not_or, not_and, not_forall, not_not] at isInlet
    obtain ⟨source, flows⟩ := isInlet.2 (inside isCurrent)
    by_cases repeated : source ∈ trail
    · exact ⟨source, path.head flows, Or.inr (.head' flows (ahead source repeated))⟩
    · have once' : (source :: trail).Nodup := List.nodup_cons.mpr ⟨repeated, once⟩
      have inside' : source :: trail ⊆ addresses body :=
        List.cons_subset.mpr ⟨flows.source_mem, inside⟩
      have bound := (once'.subperm inside').length_le
      refine exists_origin (source :: trail) once' inside' ?_ List.mem_cons_self (path.head flows)
      intro later member
      rcases List.mem_cons.mp member with rfl | member
      · exact .refl
      · exact (ahead later member).head flows
termination_by (addresses body).length - trail.length
decreasing_by
  simp only [List.length_cons] at bound ⊢
  omega

section Orphans

variable {blocks : List CodeBlock}

theorem exitPosition_connect (exit : Exit) :
    exitPosition (connectOrphans blocks) exit = exitPosition blocks exit := by
  simp only [exitPosition, position?, connectOrphans_address]

theorem leads_connect_iff {first second : Nat} :
    Leads (connectOrphans blocks) first second ↔
      Leads blocks first second ∨
      ∃ block, blocks[first]? = some block ∧ isUnresolved block = true ∧
        ∃ address ∈ orphans blocks, position? blocks address = some second := by
  simp only [Leads, exitPosition_connect]
  rw [connectOrphans_eq, List.getElem?_map]
  constructor
  · rintro ⟨_, found, exit, isExit, isTarget⟩
    obtain ⟨block, isBlock, rfl⟩ := Option.map_eq_some_iff.mp found
    split at isExit
    · rename_i unresolved
      obtain ⟨address, isOrphan, rfl⟩ := List.mem_map.mp isExit
      refine Or.inr ⟨block, isBlock, unresolved, address, isOrphan, ?_⟩
      obtain ⟨place, known⟩ := Option.ne_none_iff_exists'.mp
        (lastIndex?_ne_none (List.mem_filter.mp isOrphan).1)
      rw [exitPosition, position?, known, Option.getD_some] at isTarget
      rw [position?, known, isTarget]
    · exact Or.inl ⟨block, isBlock, exit, isExit, isTarget⟩
  · rintro (⟨block, isBlock, exit, isExit, isTarget⟩ |
      ⟨block, isBlock, unresolved, address, isOrphan, isPlace⟩)
    · have resolved : isUnresolved block = false := by
        simp [isUnresolved, List.ne_nil_of_mem isExit]
      exact ⟨block, by simp [isBlock, resolved], exit, isExit, isTarget⟩
    · refine ⟨_, by rw [isBlock, Option.map_some, if_pos unresolved],
        { target := address, kind := .indirect }, List.mem_map.mpr ⟨address, isOrphan, rfl⟩, ?_⟩
      rw [exitPosition, isPlace, Option.getD_some]

theorem mem_orphans {address : Int} :
    address ∈ orphans blocks ↔ address ∈ blocks.map CodeBlock.address ∧
      (∀ block, blocks.head? = some block → block.address ≠ address) ∧
      ∀ block ∈ blocks, ∀ exit ∈ block.exits, exit.target ≠ address := by
  simp only [orphans, List.mem_filter, Bool.not_eq_true', ← Bool.not_eq_true, List.contains_iff_mem,
    List.mem_append, mem_take_one, List.mem_flatMap]
  simp only [List.mem_map, not_or, not_exists, not_and]

end Orphans

section Body

variable {body : List Instruction}

theorem exists_position {address : Int} (inside : address ∈ addresses body) :
    ∃ position < (looseBlocks body).length, address ∈ addressesAt body position := by
  obtain ⟨instruction, member, rfl⟩ := List.mem_map.mp inside
  rw [← looseBlocks_instructions body] at member
  obtain ⟨block, isBlock, inBlock⟩ := List.mem_flatMap.mp member
  obtain ⟨position, below, rfl⟩ := exists_codeAt isBlock
  exact ⟨position, below, List.mem_map_of_mem inBlock⟩

theorem looseBlocks_head (body : List Instruction) :
    (looseBlocks body).head?.map CodeBlock.address = body.head?.map Instruction.address := by
  cases body with
  | nil => rfl
  | cons first rest =>
      have filled := List.length_pos_iff.mpr (looseBlocks_ne_nil (List.cons_ne_nil first rest))
      rw [List.head?_eq_getElem?, getElem?_codeAt filled, Option.map_some, codeAt_entry]
      rfl

theorem entry_eq (nonempty : body ≠ []) : body.head?.map Instruction.address =
    some (codeAt (looseBlocks body) 0).address := by
  have filled := List.length_pos_iff.mpr (looseBlocks_ne_nil nonempty)
  rw [← looseBlocks_head, List.head?_eq_getElem?, getElem?_codeAt filled, Option.map_some]

/-- A block is an orphan when no instruction at all leads to its start. -/
theorem mem_orphans_iff (distinct : (addresses body).Nodup) {address : Int} :
    address ∈ orphans (looseBlocks body) ↔ address ∈ addresses body ∧
      body.head?.map Instruction.address ≠ some address ∧ ∀ source, ¬ Flows body source address := by
  rw [mem_orphans, ← looseBlocks_head, mem_blockAddresses]
  constructor
  · rintro ⟨isLeader, notEntry, noExit⟩
    refine ⟨leaders_subset body isLeader, ?_, ?_⟩
    · intro isEntry
      obtain ⟨block, head, start⟩ := Option.map_eq_some_iff.mp isEntry
      exact notEntry block head start
    · intro source flows
      obtain ⟨position, below, inBlock⟩ := exists_position flows.source_mem
      have isBlock := codeAt_mem below
      obtain ⟨_, _, _, _, placed, stretch⟩ := looseBlocks_stretch isBlock
      rcases placed.moves_of_flows distinct inBlock flows with adjacent | ⟨_, exit, isExit, target⟩
      · -- a leader is not inside a block
        have isInner : address ∈
            (codeAt (looseBlocks body) position).instructions.tail.map Instruction.address := by
          obtain ⟨front, back, split⟩ := adjacent
          rw [List.map_tail, ← addresses, ← split]
          cases front with
          | nil => simp
          | cons earlier front => simp
        obtain ⟨instruction, member, rfl⟩ := List.mem_map.mp isInner
        exact stretch.inner instruction member isLeader
      · exact noExit _ isBlock exit isExit target
  · rintro ⟨inside, notEntry, noSource⟩
    obtain ⟨position, below, inBlock⟩ := exists_position inside
    obtain ⟨_, _, _, _, placed⟩ := codeAt_placed below
    have start : (codeAt (looseBlocks body) position).address = address := by
      rcases (placed.reaches inBlock).cases_tail with same | ⟨source, _, flows⟩
      · exact same.symm
      · exact absurd flows (noSource source)
    refine ⟨?_, ?_, ?_⟩
    · rw [← mem_blockAddresses, ← start]
      exact List.mem_map_of_mem (codeAt_mem below)
    · intro block head isEntry
      exact notEntry (by rw [head, Option.map_some, isEntry])
    · rintro block isBlock exit isExit rfl
      obtain ⟨_, _, last, _, placed⟩ := looseBlocks_placed isBlock
      exact noSource last.address
        (placed.flows_of_moves (Or.inr ⟨placed.last_eq, exit, isExit, rfl⟩))

theorem isUnresolved_of_jump (distinct : (addresses body).Nodup) {position : Nat}
    (below : position < (looseBlocks body).length) {jump : Instruction} (isJump : jump ∈ body)
    (indirect : jump.flow = .indirectJump)
    (outside : ∀ target ∈ jump.targets, target ∉ addresses body)
    (inBlock : jump.address ∈ addressesAt body position) :
    isUnresolved (codeAt (looseBlocks body) position) = true := by
  obtain ⟨before, inner, last, after, placed⟩ := codeAt_placed below
  obtain ⟨instruction, member, same⟩ := List.mem_map.mp inBlock
  obtain rfl : instruction = jump := by
    have inBody : instruction ∈ body := by
      rw [placed.body_eq]
      exact List.mem_append_left _ (List.mem_append_right _ member)
    exact List.inj_on_of_nodup_map distinct inBody isJump same
  rw [placed.instructions_eq] at member
  rcases List.mem_append.mp member with isInner | isLast
  · have goesOn := placed.inner_goes_on isInner
    rw [indirect] at goesOn
    simp [Flow.isTerminator] at goesOn
  · obtain rfl : instruction = last := by simpa using isLast
    have noExit : (codeAt (looseBlocks body) position).exits = [] := by
      rw [List.eq_nil_iff_forall_not_mem]
      intro exit isExit
      rw [placed.exits_eq] at isExit
      have leaves := mem_exits_targets.mp ⟨exit, isExit, rfl⟩
      simp only [destinations, indirect] at leaves
      exact outside _ leaves.1 leaves.2
    simp [isUnresolved, placed.lastFlow?_eq, indirect, noExit]

theorem split_length (body : List Instruction) : (split body).length = (looseBlocks body).length := by
  have same := congrArg List.length (connectOrphans_address (looseBlocks body))
  simpa [split] using same

theorem codeAt_split (body : List Instruction) (position : Nat) :
    addresses (codeAt (split body) position).instructions = addressesAt body position := by
  have same := congrArg (fun groups => groups[position]?)
    (connectOrphans_instructions (looseBlocks body))
  simp only [List.getElem?_map] at same
  simp only [addressesAt, codeAt, split, List.getD_eq_getElem?_getD]
  cases found : (connectOrphans (looseBlocks body))[position]? with
  | none =>
      rw [found, Option.map_none, eq_comm, Option.map_eq_none_iff] at same
      rw [same]
  | some block =>
      rw [found, Option.map_some, eq_comm, Option.map_eq_some_iff] at same
      obtain ⟨loose, isLoose, instructions⟩ := same
      rw [isLoose, Option.getD_some, Option.getD_some, instructions]

theorem entered_of_leads (distinct : (addresses body).Nodup) (nonempty : body ≠ []) {position : Nat}
    (path : Relation.ReflTransGen (Leads (split body)) 0 position) :
    position < (looseBlocks body).length ∧
      Entered body (codeAt (looseBlocks body) position).address := by
  induction path with
  | refl =>
      refine ⟨List.length_pos_iff.mpr (looseBlocks_ne_nil nonempty), _, Or.inl ?_, .refl⟩
      exact entry_eq nonempty
  | tail _ leads ih =>
      rcases leads_connect_iff.mp leads with loose | ⟨_, _, _, address, isOrphan, isPlace⟩
      · obtain ⟨below, across⟩ := flows_across loose
        exact ⟨below, ih.2.trans across⟩
      · -- an orphan is a new place to come in, wherever the jump to it stands
        obtain ⟨inside, _, noSource⟩ := (mem_orphans_iff distinct).mp isOrphan
        rw [codeAt_address isPlace]
        exact ⟨position?_lt isPlace, address, Or.inr ⟨inside, noSource⟩, .refl⟩

theorem leads_of_loose {start position : Nat}
    (path : Relation.ReflTransGen (Leads (looseBlocks body)) start position) :
    Relation.ReflTransGen (Leads (split body)) start position := by
  refine Relation.ReflTransGen.mono ?_ _ _ path
  exact fun _ _ leads => leads_connect_iff.mpr (Or.inl leads)

/-- From a computed jump with unknown targets the exits lead to every place where control comes in. -/
theorem leads_to_inlet (distinct : (addresses body).Nodup) (nonempty : body ≠ []) {position : Nat}
    (path : Relation.ReflTransGen (Leads (split body)) 0 position)
    (below : position < (looseBlocks body).length)
    (unresolved : isUnresolved (codeAt (looseBlocks body) position) = true) {inlet : Int}
    (isInlet : Inlet body inlet) :
    ∃ arrival < (looseBlocks body).length,
      Relation.ReflTransGen (Leads (split body)) 0 arrival ∧
        (codeAt (looseBlocks body) arrival).address = inlet := by
  by_cases isEntry : body.head?.map Instruction.address = some inlet
  · rw [entry_eq nonempty, Option.some.injEq] at isEntry
    exact ⟨0, List.length_pos_iff.mpr (looseBlocks_ne_nil nonempty), .refl, isEntry⟩
  · obtain ⟨inside, noSource⟩ := isInlet.resolve_left isEntry
    have isOrphan := (mem_orphans_iff distinct).mpr ⟨inside, isEntry, noSource⟩
    obtain ⟨arrival, isPlace⟩ := Option.ne_none_iff_exists'.mp
      (lastIndex?_ne_none (mem_orphans.mp isOrphan).1)
    have leads : Leads (split body) position arrival :=
      leads_connect_iff.mpr (Or.inr ⟨_, getElem?_codeAt below, unresolved, inlet, isOrphan, isPlace⟩)
    exact ⟨arrival, position?_lt isPlace, path.tail leads, codeAt_address isPlace⟩

end Body

/-- With a computed jump of unknown targets in reach, the blocks that the exits lead to hold exactly the
instructions that control gets to from where it comes in. -/
theorem entered_iff {first : Instruction} {rest : List Instruction}
    (distinct : (addresses (first :: rest)).Nodup) {jump : Instruction}
    (isJump : jump ∈ first :: rest) (indirect : jump.flow = .indirectJump)
    (outside : ∀ target ∈ jump.targets, target ∉ addresses (first :: rest))
    (path : Relation.ReflTransGen (Flows (first :: rest)) first.address jump.address)
    {address : Int} :
    (∃ position, Relation.ReflTransGen (Leads (split (first :: rest))) 0 position ∧
      address ∈ addressesAt (first :: rest) position) ↔ Entered (first :: rest) address := by
  have nonempty := List.cons_ne_nil first rest
  constructor
  · rintro ⟨position, leads, inBlock⟩
    obtain ⟨below, entered⟩ := entered_of_leads distinct nonempty leads
    obtain ⟨_, _, _, _, placed⟩ := codeAt_placed below
    exact entered.trans (placed.reaches inBlock)
  · rintro ⟨inlet, isInlet, reaches⟩
    obtain ⟨position, loose, inBlock⟩ := leads_of_flows distinct path
    have below := (flows_of_leads loose).1
    have unresolved := isUnresolved_of_jump distinct below isJump indirect outside inBlock
    obtain ⟨arrival, arrivalBelow, leads, start⟩ := leads_to_inlet distinct nonempty
      (leads_of_loose loose) below unresolved isInlet
    obtain ⟨_, _, _, _, placed⟩ := codeAt_placed arrivalBelow
    have begins := placed.start_mem
    rw [start] at begins
    obtain ⟨final, onward, _, inFinal⟩ := leads_along distinct arrivalBelow begins reaches
    exact ⟨final, leads.trans (leads_of_loose onward), inFinal⟩

theorem entered_iff_loops {body : List Instruction} :
    (∀ address ∈ addresses body, Entered body address) ↔
      ∀ address, Relation.TransGen (Flows body) address address → Entered body address := by
  constructor
  · intro all address loop
    obtain ⟨_, flows, _⟩ := Relation.TransGen.head'_iff.mp loop
    exact all address flows.source_mem
  · intro loops address inside
    obtain ⟨origin, path, isInlet | loop⟩ := exists_origin [address] (List.nodup_singleton address)
      (List.cons_subset.mpr ⟨inside, List.nil_subset _⟩)
      (fun later member => by rw [List.mem_singleton.mp member]) List.mem_cons_self .refl
    · exact ⟨origin, isInlet, path⟩
    · exact (loops origin loop).trans path

theorem graphOf_all_iff {body : List Instruction} (distinct : (addresses body).Nodup)
    {order : List Nat} (inside : ∀ position ∈ order, position < (split body).length)
    (name : String) (family : Family) (labels : List (Int × String)) (base : Int) :
    (∀ block ∈ split body, addresses block.instructions ∈
      (graphOf name (split body) family labels base order).display.addresses) ↔
    ∀ address ∈ addresses body,
      address ∈ (graphOf name (split body) family labels base order).display.addresses.flatten := by
  simp only [graphOf_listed inside, codeAt_split]
  rw [split_length] at inside
  constructor
  · intro blocks address inBody
    obtain ⟨position, below, inBlock⟩ := exists_position inBody
    rw [← split_length] at below
    have isBlock := codeAt_mem below
    have listed := blocks _ isBlock
    rw [codeAt_split] at listed
    exact List.mem_flatten.mpr ⟨_, listed, inBlock⟩
  · intro instructions block isBlock
    obtain ⟨position, below, rfl⟩ := exists_codeAt isBlock
    rw [codeAt_split]
    rw [split_length] at below
    obtain ⟨_, _, _, _, placed⟩ := codeAt_placed below
    have isLoose := codeAt_mem below
    -- the start of the block is listed, and no other group can list it
    have inBody := leaders_subset body (mem_blockAddresses.mp (List.mem_map_of_mem isLoose))
    obtain ⟨_, isListed, inGroup⟩ := List.mem_flatten.mp (instructions _ inBody)
    obtain ⟨other, isOther, rfl⟩ := List.mem_map.mp isListed
    obtain rfl := addressesAt_unique distinct (inside other isOther) below inGroup placed.start_mem
    exact isListed

end Code

namespace Function

/-- Control gets to a computed jump none of whose targets is in the function. Of such a function the
canonical graph keeps what control gets to from the first instruction or from one that no instruction
leads to. It keeps all of it exactly when it keeps the loops. -/
theorem canonicalize_unresolved (function : Function) (first : Instruction)
    (rest : List Instruction) (name : String)
    (hasBody : function.body.outcome = .ok (first :: rest))
    (hasName : function.name.outcome = .ok name)
    (jump : Instruction) (isJump : jump ∈ first :: rest) (indirect : jump.flow = .indirectJump)
    (outside : ∀ target ∈ jump.targets, target ∉ Code.addresses (first :: rest))
    (path : Relation.ReflTransGen (Code.Flows (first :: rest)) first.address jump.address) :
    ∃ graph, function.canonicalize.outcome = .ok graph ∧
      (∀ address, address ∈ graph.display.addresses.flatten ↔
        Code.Entered (first :: rest) address) ∧
      ((graph.warnings = [] ∧ ∀ block ∈ Code.split (first :: rest),
          Code.addresses block.instructions ∈ graph.display.addresses) ↔
        ∀ address, Relation.TransGen (Code.Flows (first :: rest)) address address →
          Code.Entered (first :: rest) address) := by
  have distinct := body_nodup hasBody
  obtain ⟨order, orderDistinct, inside, reached, built, _⟩ := Code.build_graphOf
    function.format.classes?_isSome name (Code.split_closed (first :: rest))
    (Code.split_ne_nil (List.cons_ne_nil first rest)) function.labels function.address
  have canonical := canonicalize_outcome hasBody hasName
  rw [built] at canonical
  have listed := Code.graphOf_listed inside name function.format.family function.labels
    function.address
  have kept : ∀ address, address ∈ (Code.graphOf name (Code.split (first :: rest))
      function.format.family function.labels function.address order).display.addresses.flatten ↔
      Code.Entered (first :: rest) address := by
    intro address
    rw [listed, ← Code.entered_iff distinct isJump indirect outside path]
    simp [List.mem_flatten, reached, Code.codeAt_split]
  have warned := Code.graphOf_warned inside name function.format.family function.labels
    function.address orderDistinct (Code.split_addresses_nodup distinct)
  have all := Code.graphOf_all_iff distinct inside name function.format.family function.labels
    function.address
  simp only [kept, Code.entered_iff_loops] at all
  refine ⟨_, canonical, kept, ?_⟩
  rw [← all]
  constructor
  · exact fun whole => whole.2
  · intro whole
    refine ⟨?_, whole⟩
    by_contra warning
    obtain ⟨block, isBlock, missing⟩ := warned.mp warning
    exact missing (whole block isBlock)

/-- A computed jump out of the function, and behind it a case that goes on into a loop. -/
def tableBody : List Instruction :=
  [{ address := 0, mnemonic := "ja", text := "ja 8", flow := .condJump, targets := [8] },
   { address := 2, mnemonic := "jmp", text := "jmp rax", flow := .indirectJump, targets := [99] },
   { address := 4, mnemonic := "mov", text := "mov ecx, 3" },
   { address := 5, mnemonic := "loop", text := "loop 5", flow := .condJump, targets := [5] },
   { address := 7, mnemonic := "ret", text := "ret", flow := .ret },
   { address := 8, mnemonic := "ret", text := "ret", flow := .ret }]

def tableFunction : Function :=
  { rawName := "table", name := pure "table", address := 0, format := .x64
    stream := pure tableBody }

theorem tableBody_entered : ∀ address ∈ Code.addresses tableBody, Code.Entered tableBody address := by
  have start : Code.Entered tableBody 0 := ⟨0, Or.inl rfl, .refl⟩
  have caseStart : Code.Entered tableBody 4 := by
    refine ⟨4, Or.inr ⟨by decide, fun source flows => ?_⟩, .refl⟩
    have none' : ∀ source ∈ Code.addresses tableBody, ¬ Code.Flows tableBody source 4 := by decide
    exact none' source flows.source_mem flows
  have loop : Code.Entered tableBody 5 := caseStart.step (by decide)
  intro address member
  simp only [tableBody, Code.addresses, List.map_cons, List.map_nil, List.mem_cons,
    List.not_mem_nil, or_false] at member
  rcases member with rfl | rfl | rfl | rfl | rfl | rfl
  · exact start
  · exact start.step (by decide)
  · exact caseStart
  · exact loop
  · exact loop.step (by decide)
  · exact start.step (by decide)

theorem canonicalize_unresolved_table :
    tableFunction.body.outcome = .ok tableBody ∧
    ∃ graph, tableFunction.canonicalize.outcome = .ok graph ∧
      (∀ address, address ∈ graph.display.addresses.flatten ↔ Code.Entered tableBody address) ∧
      graph.warnings = [] ∧ ∀ block ∈ Code.split tableBody,
        Code.addresses block.instructions ∈ graph.display.addresses := by
  have hasBody : tableFunction.body.outcome = .ok tableBody := by rfl
  obtain ⟨graph, canonical, kept, whole⟩ := canonicalize_unresolved tableFunction _ _ "table" hasBody
    rfl _ (List.mem_cons_of_mem _ List.mem_cons_self) rfl (by decide) (.single (by decide))
  have all := whole.mpr (Code.entered_iff_loops.mp tableBody_entered)
  exact ⟨hasBody, graph, canonical, kept, all⟩

/-- A case that begins with a loop, behind a computed jump. -/
def loopedBody : List Instruction :=
  [{ address := 0, mnemonic := "jmp", text := "jmp rax", flow := .indirectJump },
   { address := 2, mnemonic := "jne", text := "jne 2", flow := .condJump, targets := [2] },
   { address := 4, mnemonic := "ret", text := "ret", flow := .ret }]

def loopedFunction : Function :=
  { rawName := "looped", name := pure "looped", address := 0, format := .x64
    stream := pure loopedBody }

theorem loopedBody_order : Code.linearize (Code.split loopedBody) = .ok [0] := by
  with_unfolding_all decide

/-- The loop is dropped, although the jump is the first instruction. -/
theorem looped_case_dropped :
    loopedFunction.body.outcome = .ok loopedBody ∧
    (∃ jump ∈ loopedBody, loopedBody.head? = some jump ∧ jump.flow = .indirectJump ∧
      jump.targets = []) ∧
    ∃ graph, loopedFunction.canonicalize.outcome = .ok graph ∧
      graph.warnings = [Code.droppedWarning "looped" 2] ∧
      ∃ block ∈ Code.split loopedBody,
        Code.addresses block.instructions ∉ graph.display.addresses := by
  have hasBody : loopedFunction.body.outcome = .ok loopedBody := by rfl
  refine ⟨hasBody, ⟨_, List.mem_cons_self, rfl, rfl, rfl⟩, _,
    canonicalize_linear hasBody rfl (by decide) loopedBody_order, rfl, ?_⟩
  decide

end Function

end FlowAlign
