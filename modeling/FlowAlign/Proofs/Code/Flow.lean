import FlowAlign.Proofs.Code.Canonical
import FlowAlign.Proofs.Code.Layout
import FlowAlign.Proofs.Distinct

/-!
Control flow is kept. Each instruction hands control to certain addresses of its body. The canonical
graph of a function holds exactly the instructions that control can reach, and passes control on, inside
a block or along an edge, exactly as the instructions do.
-/

namespace FlowAlign

namespace Code

/-- The addresses an instruction hands control to, `next` being the one after it. -/
def destinations (instruction : Instruction) (next : Option Int) : List Int :=
  match instruction.flow, instruction.targets with
  | .sequential, _ => next.toList
  | .call, _ => next.toList
  | .jump, targets => targets.take 1
  | .condJump, taken :: other :: _ => [taken, other]
  | .condJump, targets => targets ++ next.toList
  | .switch, targets => (targets.zip instruction.caseValues).map Prod.fst
  | .indirectJump, targets => targets
  | .callWithUnwind, [] => next.toList
  | .callWithUnwind, targets => targets
  | .ret, _ => []
  | .trap, _ => []

/-- One step of control between addresses of a body; a target elsewhere gives none. -/
inductive Flows (body : List Instruction) : Int → Int → Prop
  | step {before instruction after target} :
      body = before ++ instruction :: after →
      target ∈ destinations instruction (after.head?.map Instruction.address) →
      target ∈ addresses body → Flows body instruction.address target

/-- Where control can go from an address of a body. -/
def steps (body : List Instruction) (source : Int) : List Int :=
  (body.tails.flatMap fun
    | [] => []
    | instruction :: after =>
        if instruction.address = source then
          destinations instruction (after.head?.map Instruction.address)
        else []).filter (addresses body).contains

theorem mem_steps {body : List Instruction} {source target : Int} :
    target ∈ steps body source ↔ Flows body source target := by
  simp only [steps, List.mem_filter, List.mem_flatMap, List.mem_tails, List.contains_iff_mem]
  constructor
  · rintro ⟨⟨suffix, ⟨before, place⟩, goes⟩, inside⟩
    cases suffix with
    | nil => simp at goes
    | cons instruction after =>
        simp only at goes
        split at goes
        · rename_i isSource
          rw [← isSource]
          exact .step place.symm goes inside
        · simp at goes
  · rintro ⟨place, goes, inside⟩
    exact ⟨⟨_, ⟨_, place.symm⟩, by simpa using goes⟩, inside⟩

instance (body : List Instruction) : DecidableRel (Flows body) :=
  fun _ _ => decidable_of_iff _ mem_steps

theorem destinations_of_goes_on {instruction : Instruction} (next : Option Int)
    (goesOn : instruction.flow.isTerminator = false) :
    destinations instruction next = next.toList := by
  cases flow : instruction.flow <;> simp [flow, Flow.isTerminator] at goesOn
  · simp only [destinations, flow]
  · simp only [destinations, flow]

theorem namedExits_targets (last : Instruction) (next : Option Int) :
    (namedExits last next).map Exit.target = destinations last next := by
  rcases targets : last.targets with _ | ⟨taken, _ | ⟨other, rest⟩⟩
  all_goals
    cases flow : last.flow <;>
      simp [namedExits, destinations, flow, targets, Function.comp_def]

theorem mem_exits_targets {inside : List Int} {last : Instruction} {next : Option Int}
    {target : Int} :
    (∃ exit ∈ exits inside last next, exit.target = target) ↔
      target ∈ destinations last next ∧ target ∈ inside := by
  rw [← namedExits_targets]
  simp only [exits, List.mem_eraseDups, List.mem_filter, List.contains_iff_mem, List.mem_map]
  constructor
  · rintro ⟨exit, ⟨named, inside⟩, rfl⟩
    exact ⟨⟨exit, named, rfl⟩, inside⟩
  · rintro ⟨⟨exit, named, rfl⟩, inside⟩
    exact ⟨exit, ⟨named, inside⟩, rfl⟩

section Body

variable {body : List Instruction} (distinct : (addresses body).Nodup)

include distinct

/-- An address stands at one place of the body only. -/
theorem place_unique {before before' after after' : List Instruction}
    {instruction other : Instruction} (place : body = before ++ instruction :: after)
    (place' : body = before' ++ other :: after') (same : other.address = instruction.address) :
    before = before' ∧ instruction = other ∧ after = after' := by
  rw [place] at distinct
  simp only [addresses, List.map_append, List.map_cons, List.nodup_append, List.nodup_cons,
    List.mem_map, not_exists, not_and] at distinct
  obtain ⟨_, ⟨notAfter, _⟩, notBefore⟩ := distinct
  refine (List.append_cons_inj_of_notMem ?_ ?_).mp (place.symm.trans place')
  · intro member
    exact notBefore _ ⟨other, member, rfl⟩ _ List.mem_cons_self same
  · exact fun member => notAfter other member same

theorem flows_iff {before after : List Instruction} {instruction : Instruction}
    (place : body = before ++ instruction :: after) {target : Int} :
    Flows body instruction.address target ↔
      target ∈ destinations instruction (after.head?.map Instruction.address) ∧
        target ∈ addresses body := by
  constructor
  · intro flows
    generalize source : instruction.address = address at flows
    cases flows with
    | step place' goes inside =>
        obtain ⟨-, rfl, rfl⟩ := place_unique distinct place place' source.symm
        exact ⟨goes, inside⟩
  · rintro ⟨goes, inside⟩
    exact .step place goes inside

end Body

theorem reaches_along {body : List Instruction} : ∀ (rest : List Instruction) (first : Instruction),
    (∀ earlier later, [earlier, later] <:+: first :: rest →
      Flows body earlier.address later.address) →
    ∀ instruction ∈ first :: rest,
      Relation.ReflTransGen (Flows body) first.address instruction.address := by
  intro rest
  induction rest with
  | nil =>
      intro first _ instruction member
      rw [List.mem_singleton.mp member]
  | cons second rest ih =>
      intro first steps instruction member
      rcases List.mem_cons.mp member with rfl | later
      · exact .refl
      · refine .head (steps first second ⟨[], rest, rfl⟩) (ih second ?_ instruction later)
        exact fun earlier later adjacent => steps earlier later (List.infix_cons adjacent)

/-- Whether a block hands control from one address to another: on inside it, or from its end by one of
its exits. -/
def Moves (block : CodeBlock) (source target : Int) : Prop :=
  [source, target] <:+: addresses block.instructions ∨
    (addresses block.instructions).getLast? = some source ∧
      ∃ exit ∈ block.exits, exit.target = target

namespace Placed

variable {body before inner after : List Instruction} {block : CodeBlock} {last : Instruction}
  (placed : Placed body block before inner last after)

include placed

theorem head_eq : (addresses block.instructions).head? = some block.address := by
  rw [addresses, List.head?_map]
  exact placed.starts

theorem last_eq : (addresses block.instructions).getLast? = some last.address := by
  simp [addresses, placed.instructions_eq]

theorem start_mem : block.address ∈ addresses block.instructions :=
  List.mem_of_mem_head? placed.head_eq

theorem last_mem : last.address ∈ addresses block.instructions :=
  List.mem_of_getLast? placed.last_eq

theorem last_place : body = (before ++ inner) ++ last :: after := by
  rw [placed.body_eq, placed.instructions_eq]
  simp

theorem flows_of_adjacent {first second : Instruction}
    (adjacent : [first, second] <:+: block.instructions) :
    Flows body first.address second.address := by
  obtain ⟨front, back, split⟩ := adjacent
  have place : body = (before ++ front) ++ first :: second :: (back ++ after) := by
    rw [placed.body_eq, ← split]
    simp
  refine .step place ?_ ?_
  · rw [destinations_of_goes_on _ (placed.goes_on first second ⟨front, back, split⟩)]
    simp
  · rw [place]
    simp [addresses]

theorem flows_of_moves {source target : Int} (moves : Moves block source target) :
    Flows body source target := by
  rcases moves with adjacent | ⟨final, leaves⟩
  · obtain ⟨pair, isPair, split⟩ := List.infix_map_iff.mp adjacent
    match pair, split with
    | [first, second], split =>
        obtain ⟨rfl, rfl⟩ : source = first.address ∧ target = second.address := by simpa using split
        exact placed.flows_of_adjacent isPair
  · obtain rfl : last.address = source := by
      rw [placed.last_eq] at final
      exact Option.some.inj final
    rw [placed.exits_eq, mem_exits_targets] at leaves
    exact .step placed.last_place leaves.1 leaves.2

theorem moves_of_flows (distinct : (addresses body).Nodup) {source target : Int}
    (inBlock : source ∈ addresses block.instructions) (flows : Flows body source target) :
    Moves block source target := by
  obtain ⟨instruction, member, rfl⟩ := List.mem_map.mp inBlock
  rw [placed.instructions_eq] at member
  rcases List.mem_append.mp member with isInner | isLast
  · obtain ⟨front, second, rest, whole⟩ := placed.inner_place isInner
    have adjacent : [instruction, second] <:+: block.instructions :=
      ⟨front, rest, by simp [whole]⟩
    have place : body = (before ++ front) ++ instruction :: second :: (rest ++ after) := by
      rw [placed.body_eq, whole]
      simp
    rw [flows_iff distinct place,
      destinations_of_goes_on _ (placed.inner_goes_on isInner)] at flows
    obtain rfl : target = second.address := by simpa using flows.1
    exact Or.inl (adjacent.map Instruction.address)
  · obtain rfl : instruction = last := by simpa using isLast
    rw [flows_iff distinct placed.last_place] at flows
    refine Or.inr ⟨placed.last_eq, ?_⟩
    rw [placed.exits_eq, mem_exits_targets]
    exact flows

/-- Inside a block control gets from the start to every instruction. -/
theorem reaches {address : Int} (inBlock : address ∈ addresses block.instructions) :
    Relation.ReflTransGen (Flows body) block.address address := by
  obtain ⟨instruction, member, rfl⟩ := List.mem_map.mp inBlock
  have starts := placed.starts
  cases instructions : block.instructions with
  | nil => simp [instructions] at member
  | cons first rest =>
      rw [instructions] at starts member
      have start : first.address = block.address := by simpa using starts
      rw [← start]
      refine reaches_along rest first ?_ instruction member
      intro earlier later adjacent
      rw [← instructions] at adjacent
      exact placed.flows_of_adjacent adjacent

end Placed

section Graph

variable {body : List Instruction} {order : List Nat}

/-- The addresses of the instructions in the block at a position. -/
def addressesAt (body : List Instruction) (position : Nat) : List Int :=
  addresses (codeAt (looseBlocks body) position).instructions

theorem codeAt_placed {position : Nat} (below : position < (looseBlocks body).length) :
    ∃ before inner last after,
      Placed body (codeAt (looseBlocks body) position) before inner last after :=
  looseBlocks_placed (codeAt_mem below)

theorem codeAt_entry (first : Instruction) (rest : List Instruction) :
    (codeAt (looseBlocks (first :: rest)) 0).address = first.address := by
  obtain ⟨group, groups, start⟩ := cut_cons (leaders (first :: rest)) first rest
  simp [codeAt, looseBlocks, start, blocksOf, List.getLast?_cons]

/-- An exit leads from a block to the block that starts at its target. -/
theorem leads_of_exit {position : Nat} (below : position < (looseBlocks body).length) {exit : Exit}
    (isExit : exit ∈ (codeAt (looseBlocks body) position).exits) :
    ∃ target, position? (looseBlocks body) exit.target = some target ∧
      Leads (looseBlocks body) position target ∧ target < (looseBlocks body).length ∧
      (codeAt (looseBlocks body) target).address = exit.target := by
  have found := getElem?_codeAt below
  have isTarget := (looseBlocks_closed body).position? (List.mem_of_getElem? found) isExit
  exact ⟨_, isTarget, ⟨_, found, exit, isExit, rfl⟩, position?_lt isTarget, codeAt_address isTarget⟩

theorem listed_nodup (distinct : (addresses body).Nodup) :
    ((looseBlocks body).map fun block => addresses block.instructions).flatten.Nodup := by
  have listed : ((looseBlocks body).map fun block => addresses block.instructions).flatten =
      addresses body := by
    rw [← congrArg addresses (looseBlocks_instructions body)]
    simp [addresses, List.flatMap_def, Function.comp_def]
  rwa [listed]

theorem looseBlocks_disjoint (distinct : (addresses body).Nodup) :
    (looseBlocks body).Pairwise fun first second =>
      (addresses first.instructions).Disjoint (addresses second.instructions) :=
  List.pairwise_map.mp (List.nodup_flatten.mp (listed_nodup distinct)).2

theorem looseBlocks_address_nodup (distinct : (addresses body).Nodup) :
    ((looseBlocks body).map CodeBlock.address).Nodup := by
  rw [List.Nodup, List.pairwise_map]
  refine (looseBlocks_disjoint distinct).imp_of_mem ?_
  intro first second isFirst isSecond disjoint same
  obtain ⟨_, _, _, _, placed⟩ := looseBlocks_placed isFirst
  obtain ⟨_, _, _, _, placed'⟩ := looseBlocks_placed isSecond
  exact disjoint placed.start_mem (same ▸ placed'.start_mem)

theorem addressesAt_getElem {position : Nat}
    (below : position < ((looseBlocks body).map fun block => addresses block.instructions).length) :
    ((looseBlocks body).map fun block => addresses block.instructions)[position] =
      addressesAt body position := by
  rw [List.length_map] at below
  simp [addressesAt, codeAt, below]

/-- No address is in two blocks. -/
theorem addressesAt_disjoint (distinct : (addresses body).Nodup) {first second : Nat}
    (firstBelow : first < (looseBlocks body).length)
    (secondBelow : second < (looseBlocks body).length) (apart : first ≠ second) :
    (addressesAt body first).Disjoint (addressesAt body second) := by
  have disjoint := List.pairwise_iff_getElem.mp (List.nodup_flatten.mp (listed_nodup distinct)).2
  have ordered : ∀ {earlier later : Nat}, later < (looseBlocks body).length → earlier < later →
      (addressesAt body earlier).Disjoint (addressesAt body later) := by
    intro earlier later below less
    have pair := disjoint earlier later (by rw [List.length_map]; omega)
      (by rwa [List.length_map]) less
    rwa [addressesAt_getElem, addressesAt_getElem] at pair
  rcases Nat.lt_or_gt_of_ne apart with less | greater
  · exact ordered secondBelow less
  · exact (ordered firstBelow greater).symm

theorem addressesAt_unique (distinct : (addresses body).Nodup) {first second : Nat}
    (firstBelow : first < (looseBlocks body).length)
    (secondBelow : second < (looseBlocks body).length) {address : Int}
    (inFirst : address ∈ addressesAt body first) (inSecond : address ∈ addressesAt body second) :
    first = second := by
  by_contra apart
  exact addressesAt_disjoint distinct firstBelow secondBelow apart inFirst inSecond

theorem addressesAt_nodup (distinct : (addresses body).Nodup) (orderDistinct : order.Nodup)
    (inside : ∀ position ∈ order, position < (looseBlocks body).length) :
    (order.map (addressesAt body)).flatten.Nodup := by
  rw [List.nodup_flatten, List.pairwise_map]
  refine ⟨?_, ?_⟩
  · intro group member
    obtain ⟨position, isPosition, rfl⟩ := List.mem_map.mp member
    refine (List.nodup_flatten.mp (listed_nodup distinct)).1 _ (List.mem_map.mpr ⟨_, ?_, rfl⟩)
    exact codeAt_mem (inside position isPosition)
  · refine orderDistinct.imp_of_mem ?_
    intro first second isFirst isSecond apart
    exact addressesAt_disjoint distinct (inside first isFirst) (inside second isSecond) apart

/-- Control gets from the start of a block to the start of every block that its exits lead to. -/
theorem flows_across {before after : Nat} (leads : Leads (looseBlocks body) before after) :
    after < (looseBlocks body).length ∧
      Relation.ReflTransGen (Flows body) (codeAt (looseBlocks body) before).address
        (codeAt (looseBlocks body) after).address := by
  obtain ⟨block, found, exit, isExit, isTarget⟩ := leads
  have below := (List.getElem?_eq_some_iff.mp found).1
  obtain rfl : codeAt (looseBlocks body) before = block := by
    rw [getElem?_codeAt below] at found
    exact Option.some.inj found
  obtain ⟨target, known, _, targetBelow, start⟩ := leads_of_exit below isExit
  obtain rfl : target = after := by
    rw [exitPosition, known, Option.getD_some] at isTarget
    exact isTarget
  obtain ⟨front, inner, last, back, placed⟩ := codeAt_placed below
  refine ⟨targetBelow, (placed.reaches placed.last_mem).tail ?_⟩
  rw [start]
  exact placed.flows_of_moves (Or.inr ⟨placed.last_eq, exit, isExit, rfl⟩)

/-- Control reaches the blocks that the exits lead to. -/
theorem flows_of_leads {first : Instruction} {rest : List Instruction} {position : Nat}
    (path : Relation.ReflTransGen (Leads (looseBlocks (first :: rest))) 0 position) :
    position < (looseBlocks (first :: rest)).length ∧
      Relation.ReflTransGen (Flows (first :: rest)) first.address
        (codeAt (looseBlocks (first :: rest)) position).address := by
  induction path with
  | refl =>
      refine ⟨List.length_pos_iff.mpr (looseBlocks_ne_nil (by simp)), ?_⟩
      rw [codeAt_entry]
  | tail _ leads ih =>
      obtain ⟨below, across⟩ := flows_across leads
      exact ⟨below, ih.2.trans across⟩

/-- Control that starts in a block stays in the blocks that the exits lead to from there. -/
theorem leads_along (distinct : (addresses body).Nodup) {position : Nat}
    (below : position < (looseBlocks body).length) {source target : Int}
    (inBlock : source ∈ addressesAt body position)
    (path : Relation.ReflTransGen (Flows body) source target) :
    ∃ arrival, Relation.ReflTransGen (Leads (looseBlocks body)) position arrival ∧
      arrival < (looseBlocks body).length ∧ target ∈ addressesAt body arrival := by
  induction path with
  | refl => exact ⟨position, .refl, below, inBlock⟩
  | tail _ flows ih =>
      obtain ⟨arrival, leads, arrivalBelow, inArrival⟩ := ih
      obtain ⟨_, _, _, _, placed⟩ := codeAt_placed arrivalBelow
      rcases placed.moves_of_flows distinct inArrival flows with adjacent | ⟨_, exit, isExit, rfl⟩
      · exact ⟨arrival, leads, arrivalBelow, adjacent.subset (by simp)⟩
      · obtain ⟨next, _, onward, nextBelow, start⟩ := leads_of_exit arrivalBelow isExit
        obtain ⟨_, _, _, _, nextPlaced⟩ := codeAt_placed nextBelow
        have startMember := nextPlaced.start_mem
        rw [start] at startMember
        exact ⟨next, leads.tail onward, nextBelow, startMember⟩

theorem leads_of_flows {first : Instruction} {rest : List Instruction}
    (distinct : (addresses (first :: rest)).Nodup) {address : Int}
    (path : Relation.ReflTransGen (Flows (first :: rest)) first.address address) :
    ∃ position, Relation.ReflTransGen (Leads (looseBlocks (first :: rest))) 0 position ∧
      address ∈ addressesAt (first :: rest) position := by
  have filled := List.length_pos_iff.mpr (looseBlocks_ne_nil (List.cons_ne_nil first rest))
  obtain ⟨_, _, _, _, placed⟩ := codeAt_placed filled
  have start := placed.start_mem
  rw [codeAt_entry] at start
  obtain ⟨position, leads, _, inBlock⟩ := leads_along distinct filled start path
  exact ⟨position, leads, inBlock⟩

/-- The blocks that the exits lead to hold exactly the instructions that control reaches. -/
theorem reached_iff {first : Instruction} {rest : List Instruction}
    (distinct : (addresses (first :: rest)).Nodup) {address : Int} :
    (∃ position, Relation.ReflTransGen (Leads (looseBlocks (first :: rest))) 0 position ∧
      address ∈ addressesAt (first :: rest) position) ↔
      Relation.ReflTransGen (Flows (first :: rest)) first.address address := by
  constructor
  · rintro ⟨position, leads, inBlock⟩
    obtain ⟨below, reach⟩ := flows_of_leads leads
    obtain ⟨_, _, _, _, placed⟩ := codeAt_placed below
    exact reach.trans (placed.reaches inBlock)
  · exact leads_of_flows distinct

end Graph

end Code

/-- Whether a graph passes control from one address to another: on inside a block, or along an edge from
the end of a block to the start of a block. -/
inductive FlowGraph.Passes (graph : FlowGraph) : Int → Int → Prop
  | inside {group source target} : group ∈ graph.display.addresses →
      [source, target] <:+: group → Passes graph source target
  | along {place arrival : Nat} {block edge group next source target} :
      graph.blocks[place]? = some block → edge ∈ block.edges → edge.target = arrival →
      graph.display.addresses[place]? = some group → group.getLast? = some source →
      graph.display.addresses[arrival]? = some next → next.head? = some target →
      Passes graph source target

namespace Code

section Passes

variable {first : Instruction} {rest : List Instruction} {order : List Nat}
  (inside : ∀ position ∈ order, position < (looseBlocks (first :: rest)).length)
  (name : String) (family : Family) (labels : List (Int × String)) (base : Int)

include inside

theorem graphOf_addresses :
    (graphOf name (looseBlocks (first :: rest)) family labels base order).display.addresses =
      order.map (addressesAt (first :: rest)) :=
  graphOf_listed inside name family labels base

theorem flows_of_passes {source target : Int}
    (passes : (graphOf name (looseBlocks (first :: rest)) family labels base order).Passes
      source target) : Flows (first :: rest) source target := by
  have groups := graphOf_addresses inside name family labels base
  cases passes with
  | inside isGroup adjacent =>
      rw [groups] at isGroup
      obtain ⟨position, isPosition, rfl⟩ := List.mem_map.mp isGroup
      obtain ⟨_, _, _, _, placed⟩ := codeAt_placed (inside position isPosition)
      exact placed.flows_of_moves (Or.inl adjacent)
  | @along place arrival block edge group next _ _ found isEdge arrives isGroup final isNext starts =>
      rw [graphOf_getElem? inside] at found
      obtain ⟨position, isPosition, rfl⟩ := Option.map_eq_some_iff.mp found
      rw [groups, List.getElem?_map, isPosition, Option.map_some, Option.some.injEq] at isGroup
      rw [groups, List.getElem?_map] at isNext
      obtain ⟨reached, isReached, rfl⟩ := Option.map_eq_some_iff.mp isNext
      subst isGroup
      obtain ⟨exit, isExit, exitTarget, known, rfl⟩ := mem_canonicalEdges.mp isEdge
      have below := inside position (List.mem_of_getElem? isPosition)
      obtain ⟨exitTarget', known', _, targetBelow, start⟩ := leads_of_exit below isExit
      obtain rfl : exitTarget = exitTarget' := by
        rw [known] at known'
        exact Option.some.inj known'
      -- the edge arrives at a place of the order, so its target is kept and stands at that place
      obtain rfl : order.idxOf exitTarget = arrival := Int.ofNat.inj arrives
      obtain rfl : exitTarget = reached := by
        have kept := List.idxOf_lt_length_iff.mp (List.getElem?_eq_some_iff.mp isReached).1
        rw [List.getElem?_idxOf kept] at isReached
        exact Option.some.inj isReached
      obtain ⟨_, _, _, _, targetPlaced⟩ := codeAt_placed targetBelow
      obtain rfl : exit.target = target := by
        rw [addressesAt, targetPlaced.head_eq, start] at starts
        exact Option.some.inj starts
      obtain ⟨_, _, _, _, placed⟩ := codeAt_placed below
      exact placed.flows_of_moves (Or.inr ⟨final, exit, isExit, rfl⟩)

theorem passes_of_flows (distinct : (addresses (first :: rest)).Nodup)
    (reached : ∀ position,
      position ∈ order ↔ Relation.ReflTransGen (Leads (looseBlocks (first :: rest))) 0 position)
    {position : Nat} (isPosition : position ∈ order) {source target : Int}
    (inBlock : source ∈ addressesAt (first :: rest) position)
    (flows : Flows (first :: rest) source target) :
    (graphOf name (looseBlocks (first :: rest)) family labels base order).Passes source target := by
  have groups := graphOf_addresses inside name family labels base
  have below := inside position isPosition
  obtain ⟨_, _, _, _, placed⟩ := codeAt_placed below
  rcases placed.moves_of_flows distinct inBlock flows with adjacent | ⟨final, exit, isExit, rfl⟩
  · refine .inside ?_ adjacent
    rw [groups]
    exact List.mem_map.mpr ⟨position, isPosition, rfl⟩
  · obtain ⟨exitTarget, known, leads, targetBelow, start⟩ := leads_of_exit below isExit
    have targetKept : exitTarget ∈ order :=
      (reached exitTarget).mpr (((reached position).mp isPosition).tail leads)
    have here := List.getElem?_idxOf isPosition
    have there := List.getElem?_idxOf targetKept
    obtain ⟨_, _, _, _, targetPlaced⟩ := codeAt_placed targetBelow
    have head := targetPlaced.head_eq
    rw [start] at head
    have isEdge : ({ source := order.idxOf position, target := order.idxOf exitTarget
                     kind := exit.kind, value := exit.value } : Edge) ∈
        canonicalEdges (looseBlocks (first :: rest)) order (order.idxOf position)
          (codeAt (looseBlocks (first :: rest)) position) :=
      mem_canonicalEdges.mpr ⟨exit, isExit, exitTarget, known, rfl⟩
    have isBlock := graphOf_getElem? inside name family labels base (order.idxOf position)
    rw [here, Option.map_some] at isBlock
    refine .along isBlock isEdge rfl ?_ final ?_ head
    · rw [groups, List.getElem?_map, here]
      rfl
    · rw [groups, List.getElem?_map, there]
      rfl

end Passes

end Code

theorem Table.mem_of_find? {κ β : Type} [BEq κ] [LawfulBEq κ] {entries : List (κ × β)} {key : κ}
    {value : β} (found : Table.find? entries key = some value) : (key, value) ∈ entries := by
  obtain ⟨before, after, split, _⟩ := List.lookup_eq_some_iff.mp found
  rw [← List.mem_reverse, split]
  simp

namespace Function

/-- Of several instructions at one address a function keeps one. -/
theorem keyed_nodup (stream : List Instruction) : (Code.addresses (keyed stream)).Nodup := by
  let entries := stream.map fun instruction => (instruction.address, instruction)
  have atKey : ∀ key instruction, Table.find? entries key = some instruction →
      instruction.address = key := by
    intro key instruction found
    obtain ⟨other, _, same⟩ := List.mem_map.mp (Table.mem_of_find? found)
    simp only [Prod.mk.injEq] at same
    rw [← same.2, same.1]
  have listed : Code.addresses (keyed stream) =
      (Table.keys entries).filterMap fun key => (Table.find? entries key).map fun _ => key := by
    simp only [Code.addresses, keyed, Table.collect, List.map_filterMap]
    apply List.filterMap_congr
    intro key _
    cases found : Table.find? entries key with
    | none => simp
    | some instruction => simp [atKey key instruction found]
  rw [listed]
  refine List.Nodup.filterMap ?_ (nodup_eraseDups _)
  intro key key' other isKey isKey'
  obtain ⟨_, _, rfl⟩ := Option.map_eq_some_iff.mp isKey
  obtain ⟨_, _, rfl⟩ := Option.map_eq_some_iff.mp isKey'
  rfl

theorem body_nodup {function : Function} {instructions : List Instruction}
    (hasBody : function.body.outcome = .ok instructions) :
    (Code.addresses instructions).Nodup := by
  simp only [body, Logged.outcome_bind, Logged.outcome_pure] at hasBody
  obtain ⟨stream, _, isKeyed⟩ := Outcome.bind_eq_ok hasBody
  rw [← Except.ok.inj isKeyed]
  exact keyed_nodup stream

/-- A function whose indirect jumps are all known to lead somewhere in it has a canonical graph. The
graph lists the instructions that control can reach from the first one, each once, and passes control
between them exactly as the instructions do. -/
theorem canonicalize_flow (function : Function) (first : Instruction) (rest : List Instruction)
    (name : String) (hasBody : function.body.outcome = .ok (first :: rest))
    (hasName : function.name.outcome = .ok name)
    (resolved : ∀ instruction ∈ first :: rest, instruction.flow = .indirectJump →
      ∃ target ∈ instruction.targets, target ∈ Code.addresses (first :: rest)) :
    ∃ graph, function.canonicalize.outcome = .ok graph ∧
      graph.display.addresses.flatten.Nodup ∧
      (∀ address, address ∈ graph.display.addresses.flatten ↔
        Relation.ReflTransGen (Code.Flows (first :: rest)) first.address address) ∧
      ∀ source ∈ graph.display.addresses.flatten, ∀ target ∈ graph.display.addresses.flatten,
        Code.Flows (first :: rest) source target ↔ graph.Passes source target := by
  have distinct := body_nodup hasBody
  obtain ⟨order, orderDistinct, inside, reached, built, _⟩ := Code.build_graphOf
    function.format.classes?_isSome name (Code.looseBlocks_closed (first :: rest))
    (Code.looseBlocks_ne_nil (List.cons_ne_nil first rest)) function.labels function.address
  have groups := Code.graphOf_addresses inside name function.format.family function.labels
    function.address
  have canonical := canonicalize_outcome hasBody hasName
  rw [Code.split_eq_looseBlocks resolved, built] at canonical
  refine ⟨_, canonical, ?_, ?_, ?_⟩
  · rw [groups]
    exact Code.addressesAt_nodup distinct orderDistinct inside
  · intro address
    rw [groups, ← Code.reached_iff distinct]
    simp [List.mem_flatten, reached]
  · intro source isSource target _
    rw [groups] at isSource
    obtain ⟨position, isPosition, inBlock⟩ : ∃ position ∈ order,
        source ∈ Code.addressesAt (first :: rest) position := by
      simpa [List.mem_flatten] using isSource
    constructor
    · exact Code.passes_of_flows inside name function.format.family function.labels
        function.address distinct reached isPosition inBlock
    · exact Code.flows_of_passes inside name function.format.family function.labels
        function.address

/-- A conditional jump into the middle, a call that may unwind, a computed jump back, and a return that
nothing leads to. -/
def branchingBody : List Instruction :=
  [{ address := 0, mnemonic := "je", text := "je 4", flow := .condJump, targets := [4] },
   { address := 2, mnemonic := "invoke", text := "invoke", flow := .callWithUnwind
     targets := [4, 6] },
   { address := 4, mnemonic := "nop", text := "nop" },
   { address := 6, mnemonic := "jmp", text := "jmp rax", flow := .indirectJump
     targets := [0, 6, 99] },
   { address := 8, mnemonic := "ret", text := "ret", flow := .ret }]

def branchingFunction : Function :=
  { rawName := "branching", name := pure "branching", address := 0, format := .x64
    stream := pure branchingBody }

theorem canonicalize_flow_branching :
    branchingFunction.body.outcome = .ok branchingBody ∧
    ∃ graph, branchingFunction.canonicalize.outcome = .ok graph ∧
      graph.display.addresses.flatten.Nodup ∧
      (∀ address, address ∈ graph.display.addresses.flatten ↔
        Relation.ReflTransGen (Code.Flows branchingBody) 0 address) ∧
      ∀ source ∈ graph.display.addresses.flatten, ∀ target ∈ graph.display.addresses.flatten,
        Code.Flows branchingBody source target ↔ graph.Passes source target := by
  have hasBody : branchingFunction.body.outcome = .ok branchingBody := by rfl
  refine ⟨hasBody, canonicalize_flow branchingFunction _ _ "branching" hasBody rfl ?_⟩
  intro instruction member indirect
  simp only [List.mem_cons, List.not_mem_nil, or_false] at member
  rcases member with rfl | rfl | rfl | rfl | rfl
  all_goals simp [Code.addresses] at indirect ⊢

end Function

end FlowAlign
