import FlowAlign.Proofs.Code.Canonical
import FlowAlign.Proofs.Distinct
import FlowAlign.Proofs.Graph.Relabelling

/-!
Where a block is stored does not matter. A list of blocks that has the entry of another one and holds
everything that can be reached in it lists the same blocks in the same order, with the same edges. So a
list that is rearranged behind its entry has the same graph.
-/

namespace FlowAlign

namespace Edge

def redirect (source : Nat) (label : Nat → Nat) (edge : Edge) : Edge :=
  { edge with source := source, target := label edge.target.toNat }

theorem sort_redirect (source : Nat) (label : Nat → Nat) (edges : List Edge) :
    sort (edges.map (redirect source label)) = (sort edges).map (redirect source label) := by
  symm
  apply List.map_mergeSort
  intro first _ second _
  rfl

end Edge

namespace Code

variable {blocks blocks' : List CodeBlock}

def placeIn (blocks : List CodeBlock) (block : CodeBlock) : Nat :=
  (position? blocks block.address).getD 0

theorem placeIn_spec (distinct : (blocks.map CodeBlock.address).Nodup) {block : CodeBlock}
    (member : block ∈ blocks) :
    position? blocks block.address = some (placeIn blocks block) ∧
      placeIn blocks block < blocks.length ∧ codeAt blocks (placeIn blocks block) = block := by
  obtain ⟨place, found⟩ := Option.ne_none_iff_exists'.mp
    (lastIndex?_ne_none (List.mem_map_of_mem member))
  have isPlace : placeIn blocks block = place := by
    rw [placeIn, position?, found, Option.getD_some]
  have below := position?_lt found
  rw [isPlace]
  refine ⟨found, below, ?_⟩
  exact List.inj_on_of_nodup_map distinct (codeAt_mem below) member
    (codeAt_address found)

theorem codeAt_inj (distinct : (blocks.map CodeBlock.address).Nodup) {first second : Nat}
    (firstBelow : first < blocks.length) (secondBelow : second < blocks.length)
    (same : codeAt blocks first = codeAt blocks second) : first = second := by
  refine (List.getElem?_inj firstBelow distinct.of_map).mp ?_
  rw [getElem?_codeAt firstBelow, getElem?_codeAt secondBelow, same]

theorem exitPosition_address (closed : Closed blocks) {block : CodeBlock} (isBlock : block ∈ blocks)
    {exit : Exit} (isExit : exit ∈ block.exits) :
    (codeAt blocks (exitPosition blocks exit)).address = exit.target :=
  codeAt_address (closed.position? isBlock isExit)

theorem nextOf_eq {position : Nat} (below : position < blocks.length) :
    nextOf blocks position = (successorsOf blocks position (codeAt blocks position)).reverse := by
  simp [nextOf, List.getD_eq_getElem?_getD, getElem?_codeAt below]

theorem successorsOf_map {label : Nat → Nat} {block : CodeBlock} (place place' : Nat)
    (moves : ∀ exit ∈ block.exits, exitPosition blocks' exit = label (exitPosition blocks exit))
    (apart : Separates label (block.exits.map (exitPosition blocks))) :
    successorsOf blocks' place' block = (successorsOf blocks place block).map label := by
  have edges : (block.exits.map fun exit =>
      ({ source := place', target := exitPosition blocks' exit, kind := exit.kind
         value := exit.value } : Edge)) =
      (block.exits.map fun exit =>
        ({ source := place, target := exitPosition blocks exit, kind := exit.kind
           value := exit.value } : Edge)).map (Edge.redirect place' label) := by
    rw [List.map_map]
    apply List.map_congr_left
    intro exit isExit
    simp [Edge.redirect, moves exit isExit]
  rw [successorsOf, successorsOf, edges, orderedSuccessors, orderedSuccessors, Edge.sort_redirect,
    List.map_map, ← eraseDups_map, List.map_map]
  · rfl
  · apply apart.of_subset
    intro target member
    simpa [Edge.sort, List.mem_mergeSort] using member

/-- A list of blocks and the order it is brought into. -/
structure Ordered (blocks : List CodeBlock) (order : List Nat) : Prop where
  closed : Closed blocks
  distinct : (blocks.map CodeBlock.address).Nodup
  nonempty : blocks ≠ []
  linear : linearize blocks = .ok order
  once : order.Nodup
  inside : ∀ position ∈ order, position < blocks.length
  reached : ∀ position, position ∈ order ↔ Relation.ReflTransGen (Leads blocks) 0 position

theorem exists_ordered (closed : Closed blocks) (distinct : (blocks.map CodeBlock.address).Nodup)
    (nonempty : blocks ≠ []) : ∃ order, Ordered blocks order := by
  obtain ⟨order, linear, once, _, inside, reached⟩ := linearize_spec closed nonempty
  exact ⟨order, closed, distinct, nonempty, linear, once, inside, reached⟩

/-- The second list has the entry of the first one and holds every block that can be reached from it. -/
structure Holds (blocks blocks' : List CodeBlock) : Prop where
  entry : blocks'.head? = blocks.head?
  closed : Closed blocks'
  distinct : (blocks'.map CodeBlock.address).Nodup
  kept : ∀ position, Relation.ReflTransGen (Leads blocks) 0 position →
    codeAt blocks position ∈ blocks'

def moveTo (blocks blocks' : List CodeBlock) (position : Nat) : Nat :=
  placeIn blocks' (codeAt blocks position)

section Linear

variable {order : List Nat} (ordered : Ordered blocks order) (holds : Holds blocks blocks')

include ordered in
theorem Ordered.length_le : order.length ≤ blocks.length := by
  have subset : order ⊆ List.range blocks.length := by
    intro position member
    exact List.mem_range.mpr (ordered.inside position member)
  have bound := (ordered.once.subperm subset).length_le
  rwa [List.length_range] at bound

include ordered in
theorem Ordered.leads_mem {first second : Nat} (member : first ∈ order)
    (leads : Leads blocks first second) : second ∈ order :=
  (ordered.reached second).mpr (((ordered.reached first).mp member).tail leads)

include ordered in
theorem Ordered.exitPosition_mem {position : Nat} (member : position ∈ order) {exit : Exit}
    (isExit : exit ∈ (codeAt blocks position).exits) : exitPosition blocks exit ∈ order :=
  ordered.leads_mem member ⟨_, getElem?_codeAt (ordered.inside position member), exit, isExit, rfl⟩

include ordered holds

theorem moveTo_spec {position : Nat} (member : position ∈ order) :
    position? blocks' (codeAt blocks position).address = some (moveTo blocks blocks' position) ∧
      moveTo blocks blocks' position < blocks'.length ∧
      codeAt blocks' (moveTo blocks blocks' position) = codeAt blocks position :=
  placeIn_spec holds.distinct (holds.kept position ((ordered.reached position).mp member))

theorem moveTo_inside :
    ∀ place ∈ order.map (moveTo blocks blocks'), place < blocks'.length := by
  intro place member
  obtain ⟨position, isPosition, rfl⟩ := List.mem_map.mp member
  exact (moveTo_spec ordered holds isPosition).2.1

theorem moveTo_inj {first second : Nat} (isFirst : first ∈ order) (isSecond : second ∈ order)
    (same : moveTo blocks blocks' first = moveTo blocks blocks' second) : first = second := by
  apply codeAt_inj ordered.distinct (ordered.inside first isFirst) (ordered.inside second isSecond)
  rw [← (moveTo_spec ordered holds isFirst).2.2, same, (moveTo_spec ordered holds isSecond).2.2]

theorem moveTo_entry (isFirst : 0 ∈ order) : moveTo blocks blocks' 0 = 0 := by
  obtain ⟨_, below, same⟩ := moveTo_spec ordered holds isFirst
  have first := getElem?_codeAt (ordered.inside 0 isFirst)
  have entry := holds.entry
  rw [List.head?_eq_getElem?, List.head?_eq_getElem?, first] at entry
  apply codeAt_inj holds.distinct below (List.getElem?_eq_some_iff.mp entry).1
  rw [same, codeAt, codeAt, List.getD_eq_getElem?_getD, List.getD_eq_getElem?_getD, entry, first]

theorem exitPosition_moveTo {position : Nat} (member : position ∈ order) {exit : Exit}
    (isExit : exit ∈ (codeAt blocks position).exits) :
    position? blocks' exit.target = some (moveTo blocks blocks' (exitPosition blocks exit)) := by
  have isBlock := codeAt_mem (ordered.inside position member)
  have found := (moveTo_spec ordered holds (ordered.exitPosition_mem member isExit)).1
  rwa [exitPosition_address ordered.closed isBlock isExit] at found

theorem nextOf_moveTo {position : Nat} (member : position ∈ order) :
    nextOf blocks' (moveTo blocks blocks' position) =
      (nextOf blocks position).map (moveTo blocks blocks') := by
  obtain ⟨_, below, same⟩ := moveTo_spec ordered holds member
  rw [nextOf_eq below, nextOf_eq (ordered.inside position member), same, List.map_reverse]
  congr 1
  apply successorsOf_map
  · intro exit isExit
    rw [exitPosition, exitPosition_moveTo ordered holds member isExit, Option.getD_some]
  · intro first isFirst second isSecond
    obtain ⟨exit, isExit, rfl⟩ := List.mem_map.mp isFirst
    obtain ⟨exit', isExit', rfl⟩ := List.mem_map.mp isSecond
    exact moveTo_inj ordered holds (ordered.exitPosition_mem member isExit)
      (ordered.exitPosition_mem member isExit')

/-- The second list is brought into the order of the first one. -/
theorem linearize_holds : linearize blocks' = .ok (order.map (moveTo blocks blocks')) := by
  have isFirst : 0 ∈ order := (ordered.reached 0).mpr .refl
  have entry := moveTo_entry ordered holds isFirst
  have nonempty' : blocks' ≠ [] := by
    have below := (moveTo_spec ordered holds isFirst).2.1
    rw [← List.length_pos_iff]
    omega
  have run : order = Search.reversePostorder (nextOf blocks) blocks.length 0 := by
    have linear := ordered.linear
    rw [linearize_eq ordered.closed ordered.nonempty] at linear
    exact (Except.ok.inj linear).symm
  -- the two searches have different bounds, and each suffices for what can be reached
  have enough : order.toFinset.card ≤ blocks.length :=
    Nat.le_trans (List.toFinset_card_le order) ordered.length_le
  have enough' : order.toFinset.card ≤ blocks'.length := by
    rw [← Finset.card_range blocks'.length]
    apply Finset.card_le_card_of_injOn (moveTo blocks blocks')
    · intro position member
      have below := (moveTo_spec ordered holds (List.mem_toFinset.mp member)).2.1
      exact Finset.mem_coe.mpr (Finset.mem_range.mpr below)
    · intro first isFirst second isSecond
      exact moveTo_inj ordered holds (by simpa using isFirst) (by simpa using isSecond)
  rw [linearize_eq holds.closed nonempty', run]
  nth_rewrite 1 [← entry]
  refine congrArg Except.ok (Search.reversePostorder_relabel ?_ ?_ ?_ (List.mem_toFinset.mpr isFirst)
    enough enough')
  · intro position member other follows
    rw [List.mem_toFinset] at member ⊢
    exact ordered.leads_mem member (mem_nextOf.mp follows)
  · intro first isFirst second isSecond
    exact moveTo_inj ordered holds (List.mem_toFinset.mp isFirst) (List.mem_toFinset.mp isSecond)
  · intro position member
    exact nextOf_moveTo ordered holds (List.mem_toFinset.mp member)

theorem ordered_holds :
    ((order.map (moveTo blocks blocks')).filterMap fun position => blocks'[position]?) =
      order.filterMap fun position => blocks[position]? := by
  rw [ordered_eq ordered.inside, ordered_eq (moveTo_inside ordered holds), List.map_map]
  apply List.map_congr_left
  intro position member
  exact (moveTo_spec ordered holds member).2.2

theorem canonicalEdges_holds (place : Nat) {position : Nat} (member : position ∈ order) :
    canonicalEdges blocks' (order.map (moveTo blocks blocks')) place (codeAt blocks position) =
      canonicalEdges blocks order place (codeAt blocks position) := by
  have isBlock := codeAt_mem (ordered.inside position member)
  rw [canonicalEdges, canonicalEdges]
  congr 1
  apply List.filterMap_congr
  intro exit isExit
  have kept := ordered.exitPosition_mem member isExit
  have apart : Separates (moveTo blocks blocks') (exitPosition blocks exit :: order) := by
    intro first isFirst second isSecond
    apply moveTo_inj ordered holds
    · rcases List.mem_cons.mp isFirst with rfl | early
      · exact kept
      · exact early
    · rcases List.mem_cons.mp isSecond with rfl | early
      · exact kept
      · exact early
  rw [exitPosition_moveTo ordered holds member isExit, ordered.closed.position? isBlock isExit,
    Option.map_some, Option.map_some, idxOf_map apart]

theorem graphOf_holds (family : Family) (name name' : String) (labels labels' : List (Int × String))
    (base base' : Int) :
    (graphOf name' blocks' family labels' base' (order.map (moveTo blocks blocks'))).blocks =
      (graphOf name blocks family labels base order).blocks := by
  apply List.ext_getElem?
  intro place
  rw [graphOf_getElem? (moveTo_inside ordered holds), graphOf_getElem? ordered.inside, List.getElem?_map]
  cases found : order[place]? with
  | none => rfl
  | some position =>
      have member := List.mem_of_getElem? found
      simp only [Option.map_some, canonicalBlock, (moveTo_spec ordered holds member).2.2,
        canonicalEdges_holds ordered holds place member]

end Linear

theorem Ordered.build_outcome {order : List Nat} (ordered : Ordered blocks order) {family : Family}
    (hasTable : (Opcode.classes? family).isSome) (name : String) (labels : List (Int × String))
    (base : Int) :
    (build name blocks family labels base).outcome =
      .ok (graphOf name blocks family labels base order) :=
  build_linear hasTable name ordered.closed ordered.nonempty labels base ordered.linear

theorem canonicalBlocks_congr {order order' : List Nat} (family : Family) :
    ∀ (rest : List CodeBlock) (place : Nat),
    (∀ block ∈ rest, ∀ place, canonicalEdges blocks' order' place block =
      canonicalEdges blocks order place block) →
    canonicalBlocks family blocks' order' place rest =
      canonicalBlocks family blocks order place rest := by
  intro rest
  induction rest with
  | nil =>
      intro place _
      rfl
  | cons block rest ih =>
      intro place same
      have tail := ih (place + 1) fun other member => same other (List.mem_cons_of_mem _ member)
      simp only [canonicalBlocks, tail, same block List.mem_cons_self]

theorem holds_of_perm (perm : blocks'.Perm blocks) (entry : blocks'.head? = blocks.head?)
    {order : List Nat} (ordered : Ordered blocks order) : Holds blocks blocks' := by
  have addresses := perm.map CodeBlock.address
  refine ⟨entry, ?_, addresses.nodup_iff.mpr ordered.distinct, ?_⟩
  · intro block isBlock exit isExit
    exact addresses.mem_iff.mpr (ordered.closed block (perm.mem_iff.mp isBlock) exit isExit)
  · intro position reached
    have below := ordered.inside position ((ordered.reached position).mpr reached)
    exact perm.mem_iff.mpr (codeAt_mem below)

/-- Blocks that are rearranged behind the entry give the same graph, with the same warnings and notes. -/
theorem build_rearranged (name : String) (blocks blocks' : List CodeBlock) (family : Family)
    (labels : List (Int × String)) (base : Int) (nonempty : blocks ≠ [])
    (distinct : (blocks.map CodeBlock.address).Nodup) (closed : Closed blocks)
    (perm : blocks'.Perm blocks) (entry : blocks'.head? = blocks.head?) :
    build name blocks' family labels base = build name blocks family labels base ∧
      ((Opcode.classes? family).isSome →
        ∃ graph, (build name blocks family labels base).outcome = .ok graph) := by
  obtain ⟨order, ordered⟩ := exists_ordered closed distinct nonempty
  have holds := holds_of_perm perm entry ordered
  have sameEdges : ∀ block ∈ order.filterMap (fun position => blocks[position]?), ∀ place,
      canonicalEdges blocks' (order.map (moveTo blocks blocks')) place block =
        canonicalEdges blocks order place block := by
    intro block isBlock place
    rw [ordered_eq ordered.inside] at isBlock
    obtain ⟨position, member, rfl⟩ := List.mem_map.mp isBlock
    exact canonicalEdges_holds ordered holds place member
  refine ⟨?_, fun hasTable => ?_⟩
  · have filled : blocks'.isEmpty = blocks.isEmpty := by
      rw [Bool.eq_iff_iff, List.isEmpty_iff_length_eq_zero, List.isEmpty_iff_length_eq_zero,
        perm.length_eq]
    have linear' := linearize_holds ordered holds
    simp only [build, filled, linear', ordered.linear, Except.mapError, Logged.ofExcept_ok, pure_bind,
      perm.length_eq, List.length_map, ordered_holds ordered holds,
      canonicalBlocks_congr family _ 0 sameEdges]
  · obtain ⟨graph, built, _⟩ := build_ok hasTable name closed nonempty labels base
    exact ⟨graph, built⟩

/-- Two ways to a block from which both the entry and one of them can be taken again. -/
def diamond : List CodeBlock :=
  [{ address := 0
     instructions := [{ address := 0, mnemonic := "je", text := "je 8", flow := .condJump
                        targets := [8] }]
     exits := [{ target := 8, kind := .branchTrue }, { target := 4, kind := .branchFalse }] },
   { address := 4
     instructions := [{ address := 4, mnemonic := "jmp", text := "jmp 12", flow := .jump
                        targets := [12] }]
     exits := [{ target := 12, kind := .unconditional }] },
   { address := 8
     instructions := [{ address := 8, mnemonic := "nop", text := "nop" }]
     exits := [{ target := 12, kind := .fallthrough }] },
   { address := 12
     instructions := [{ address := 12, mnemonic := "jmp", text := "jmp rax", flow := .indirectJump
                        targets := [8, 0] }]
     exits := [{ target := 8, kind := .indirect }, { target := 0, kind := .indirect }] }]

def rearrangedDiamond : List CodeBlock :=
  diamond.take 1 ++ (diamond.drop 1).reverse

theorem build_rearranged_diamond :
    (diamond.map CodeBlock.address).Nodup ∧ Closed diamond ∧ rearrangedDiamond.Perm diamond ∧
      rearrangedDiamond ≠ diamond ∧
      build "diamond" rearrangedDiamond .x86 [(8, "taken")] 0 =
        build "diamond" diamond .x86 [(8, "taken")] 0 ∧
      ((Opcode.classes? .x86).isSome →
        ∃ graph, (build "diamond" diamond .x86 [(8, "taken")] 0).outcome = .ok graph) := by
  have distinct : (diamond.map CodeBlock.address).Nodup := by decide
  have closed : Closed diamond := by
    unfold Closed
    decide
  have perm : rearrangedDiamond.Perm diamond := by decide
  refine ⟨distinct, closed, perm, by decide, ?_⟩
  exact build_rearranged "diamond" diamond rearrangedDiamond .x86 [(8, "taken")] 0 (by decide)
    distinct closed perm rfl

end Code

end FlowAlign
