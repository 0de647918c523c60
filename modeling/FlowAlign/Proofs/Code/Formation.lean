import Mathlib
import FlowAlign.Proofs.Code.Flow

/-!
What canonical graphs can be relied on for. A function without instructions has none, and that is the
only way to fail. Every other graph has its blocks and edges in order, one text and one address for
every token, and a warning exactly when a block was left out.
-/

namespace FlowAlign

theorem EdgeKind.rank_inj {first second : EdgeKind} (same : first.rank = second.rank) :
    first = second := by
  cases first <;> cases second <;> simp [rank] at same ⊢

namespace Edge

/-- Place in the visiting order: the kind, then the case, and the default after all other cases. -/
def priority (edge : Edge) : Nat ×ₗ WithTop Int :=
  toLex (edge.kind.rank, if edge.kind = .switchCase then edge.value.elim ⊤ WithTop.some else WithTop.some 0)

theorem caseLe_iff {first second : Option Int} :
    caseLe first second = true ↔
      (first.elim ⊤ WithTop.some : WithTop Int) ≤ second.elim ⊤ WithTop.some := by
  cases first with
  | none =>
      cases second with
      | none => simp [caseLe]
      | some value => simp [caseLe]
  | some value =>
      cases second with
      | none => simp [caseLe]
      | some other => simp [caseLe]

theorem le_iff {first second : Edge} :
    le first second = true ↔ first.priority ≤ second.priority := by
  simp only [le, priority, Prod.Lex.toLex_le_toLex]
  by_cases same : first.kind = second.kind
  · by_cases isCase : second.kind = .switchCase
    · simp [same, isCase, caseLe_iff]
    · simp [same, isCase]
  · have apart : first.kind.rank ≠ second.kind.rank := fun equal => same (EdgeKind.rank_inj equal)
    simp only [if_neg same, decide_eq_true_eq]
    constructor
    · exact fun below => Or.inl (Nat.lt_of_le_of_ne below apart)
    · rintro (below | ⟨equal, _⟩)
      · exact Nat.le_of_lt below
      · exact absurd equal apart

theorem sort_pairwise (edges : List Edge) :
    (sort edges).Pairwise fun first second => first.priority ≤ second.priority := by
  refine List.Pairwise.imp le_iff.mp (List.pairwise_mergeSort ?_ ?_ edges)
  · intro first second third
    simp only [le_iff]
    exact le_trans
  · intro first second
    simp only [Bool.or_eq_true, le_iff]
    exact le_total _ _

end Edge

namespace Code

theorem position?_inj {blocks : List CodeBlock} {first second : Int} {position : Nat}
    (isFirst : position? blocks first = some position)
    (isSecond : position? blocks second = some position) : first = second := by
  have found := lastIndex?_getElem? isFirst
  rw [lastIndex?_getElem? isSecond] at found
  exact (Option.some.inj found).symm

/-- Exits that differ give edges that differ, as long as their targets are in the order. -/
theorem canonicalEdges_nodup {blocks : List CodeBlock} {order : List Nat} {block : CodeBlock}
    (position : Nat) (distinct : block.exits.Nodup)
    (kept : ∀ exit ∈ block.exits, ∀ target, position? blocks exit.target = some target →
      target ∈ order) : (canonicalEdges blocks order position block).Nodup := by
  rw [canonicalEdges, Edge.sort, (List.mergeSort_perm _ _).nodup_iff, List.Nodup,
    List.pairwise_filterMap]
  refine distinct.imp_of_mem ?_
  intro first second isFirst isSecond apart edge isEdge edge' isEdge' same
  obtain ⟨target, found, rfl⟩ := Option.map_eq_some_iff.mp isEdge
  obtain ⟨target', found', rfl⟩ := Option.map_eq_some_iff.mp isEdge'
  simp only [Edge.mk.injEq, Int.ofNat_inj, true_and] at same
  obtain ⟨places, kinds, values⟩ := same
  obtain rfl : target = target' := (List.idxOf_inj (kept first isFirst target found)).mp places
  have targets := position?_inj found found'
  apply apart
  cases first
  cases second
  simp only [Exit.mk.injEq]
  exact ⟨targets, kinds, values⟩

section Split

variable {body : List Instruction}

theorem split_addresses_nodup (distinct : (addresses body).Nodup) :
    ((split body).map fun block => addresses block.instructions).Nodup := by
  have loose : ((split body).map fun block => addresses block.instructions) =
      (looseBlocks body).map fun block => addresses block.instructions := by
    have kept := congrArg (List.map addresses) (connectOrphans_instructions (looseBlocks body))
    simpa only [split, List.map_map, Function.comp_def] using kept
  rw [loose, List.Nodup, List.pairwise_map]
  refine (looseBlocks_disjoint distinct).imp_of_mem ?_
  intro first second isFirst _ disjoint same
  obtain ⟨_, _, _, _, placed⟩ := looseBlocks_placed isFirst
  exact disjoint placed.start_mem (same ▸ placed.start_mem)

theorem split_exits_nodup (distinct : (addresses body).Nodup) {block : CodeBlock}
    (isBlock : block ∈ split body) : block.exits.Nodup := by
  have loose : ∀ block ∈ looseBlocks body, block.exits.Nodup := by
    intro block isBlock
    obtain ⟨_, _, last, after, placed⟩ := looseBlocks_placed isBlock
    rw [placed.exits_eq, exits]
    exact nodup_eraseDups _
  rw [split, connectOrphans_eq] at isBlock
  obtain ⟨original, isOriginal, rfl⟩ := List.mem_map.mp isBlock
  split
  · refine List.Nodup.map ?_ ((looseBlocks_address_nodup distinct).filter _)
    intro first second same
    exact (Exit.mk.inj same).1
  · exact loose original isOriginal

end Split

end Code

/-- A graph made of some of the blocks, with everything in its place. -/
structure FlowGraph.Canonical (graph : FlowGraph) (blocks : List CodeBlock) : Prop where
  formed : graph.WellFormed
  reached : ∀ position < graph.size, Search.Reaches graph.successors 0 position
  sorted : ∀ block ∈ graph.blocks, block.edges.Pairwise fun first second =>
    first.priority ≤ second.priority
  distinct : ∀ block ∈ graph.blocks, block.edges.Nodup
  texts : graph.display.texts.map List.length =
    graph.blocks.map fun block => block.tokens.length
  addresses : graph.display.addresses.map List.length =
    graph.blocks.map fun block => block.tokens.length
  warned : graph.warnings ≠ [] ↔
    ∃ block ∈ blocks, Code.addresses block.instructions ∉ graph.display.addresses

namespace Code

section Graph

variable {blocks : List CodeBlock} {order : List Nat}
  (inside : ∀ position ∈ order, position < blocks.length)
  (name : String) (family : Family) (labels : List (Int × String)) (base : Int)

include inside

theorem mem_graphOf_blocks {block : Block}
    (isBlock : block ∈ (graphOf name blocks family labels base order).blocks) :
    ∃ place, ∃ position ∈ order,
      block = canonicalBlock family blocks order place (codeAt blocks position) := by
  obtain ⟨place, found⟩ := List.mem_iff_getElem?.mp isBlock
  rw [graphOf_getElem? inside] at found
  obtain ⟨position, isPosition, rfl⟩ := Option.map_eq_some_iff.mp found
  exact ⟨place, position, List.mem_of_getElem? isPosition, rfl⟩

theorem graphOf_tokens :
    ((graphOf name blocks family labels base order).blocks.map fun block => block.tokens.length) =
      order.map fun position => (codeAt blocks position).instructions.length := by
  apply List.ext_getElem?
  intro place
  rw [List.getElem?_map, graphOf_getElem? inside, List.getElem?_map, Option.map_map]
  cases order[place]? with
  | none => rfl
  | some position => simp [canonicalBlock]

/-- The order leaves a block out exactly when it is shorter than the list of blocks. -/
theorem dropped_iff (distinct : order.Nodup) :
    blocks.length - order.length ≠ 0 ↔ ∃ position < blocks.length, position ∉ order := by
  have subset : order ⊆ List.range blocks.length := by
    intro position member
    exact List.mem_range.mpr (inside position member)
  have subperm := distinct.subperm subset
  constructor
  · intro shorter
    by_contra none'
    push Not at none'
    have all : List.range blocks.length ⊆ order := by
      intro position member
      exact none' position (List.mem_range.mp member)
    have longer := (List.nodup_range.subperm all).length_le
    rw [List.length_range] at longer
    omega
  · rintro ⟨position, below, missing⟩ equal
    have perm := subperm.perm_of_length_le (by rw [List.length_range]; omega)
    exact missing (perm.mem_iff.mpr (List.mem_range.mpr below))

theorem graphOf_warned (distinct : order.Nodup)
    (apart : (blocks.map fun block => addresses block.instructions).Nodup) :
    (graphOf name blocks family labels base order).warnings ≠ [] ↔
      ∃ block ∈ blocks, addresses block.instructions ∉
        (graphOf name blocks family labels base order).display.addresses := by
  have warnings : (graphOf name blocks family labels base order).warnings ≠ [] ↔
      blocks.length - order.length ≠ 0 := by
    simp only [graphOf]
    split
    · rename_i none'
      simp [none']
    · rename_i some'
      simp [some']
  rw [warnings, dropped_iff inside distinct, graphOf_listed inside]
  constructor
  · rintro ⟨position, below, missing⟩
    refine ⟨codeAt blocks position, codeAt_mem below, ?_⟩
    intro member
    obtain ⟨other, isOther, same⟩ := List.mem_map.mp member
    have otherBelow := inside other isOther
    have equal : other = position := by
      refine (List.getElem?_inj (by simpa using otherBelow) apart).mp ?_
      rw [List.getElem?_map, List.getElem?_map, getElem?_codeAt otherBelow, getElem?_codeAt below]
      simp [same]
    exact missing (equal ▸ isOther)
  · rintro ⟨block, isBlock, missing⟩
    obtain ⟨position, below, rfl⟩ := exists_codeAt isBlock
    exact ⟨position, below, fun member => missing (List.mem_map_of_mem member)⟩

end Graph

theorem build_canonical {family : Family} (hasTable : (Opcode.classes? family).isSome)
    (name : String) {body : List Instruction} (nonempty : body ≠ [])
    (distinct : (addresses body).Nodup) (labels : List (Int × String)) (base : Int) :
    ∃ graph, (build name (split body) family labels base).outcome = .ok graph ∧
      graph.Canonical (split body) := by
  obtain ⟨order, orderDistinct, inside, reached, built, checked⟩ :=
    build_graphOf hasTable name (split_closed body) (split_ne_nil nonempty) labels base
  have tokens := graphOf_tokens inside name family labels base
  refine ⟨_, built, ?_⟩
  constructor
  · exact FlowGraph.check_wellFormed checked
  · exact fun position below => FlowGraph.reaches_of_check checked below
  · intro block isBlock
    obtain ⟨place, position, _, rfl⟩ := mem_graphOf_blocks inside name family labels base isBlock
    exact Edge.sort_pairwise _
  · intro block isBlock
    obtain ⟨place, position, member, rfl⟩ :=
      mem_graphOf_blocks inside name family labels base isBlock
    have found := getElem?_codeAt (inside position member)
    have isCode := List.mem_of_getElem? found
    refine canonicalEdges_nodup place (split_exits_nodup distinct isCode) ?_
    intro exit isExit target isTarget
    have leads : Leads (split body) position target :=
      ⟨_, found, exit, isExit, by rw [exitPosition, isTarget, Option.getD_some]⟩
    exact (reached target).mpr (((reached position).mp member).tail leads)
  · rw [tokens]
    simp [graphOf, sideTable, ordered_eq inside]
  · rw [tokens]
    simp [graphOf, sideTable, ordered_eq inside]
  · exact graphOf_warned inside name family labels base orderDistinct
      (split_addresses_nodup distinct)

end Code

namespace Function

theorem exists_canonical {function : Function} {graph : FlowGraph}
    (succeeded : function.canonicalize.outcome = .ok graph) : ∃ blocks, graph.Canonical blocks := by
  have parts := succeeded
  simp only [canonicalize, Logged.outcome_bind, Logged.outcome_leave, Outcome.ok_bind] at parts
  obtain ⟨body, hasBody, parts⟩ := Outcome.bind_eq_ok parts
  obtain ⟨name, hasName, parts⟩ := Outcome.bind_eq_ok parts
  have nonempty : body ≠ [] := by
    rintro rfl
    rw [canonicalize_empty hasBody hasName] at succeeded
    cases succeeded
  obtain ⟨found, built, canonical⟩ := Code.build_canonical function.format.classes?_isSome name
    nonempty (body_nodup hasBody) function.labels function.address
  rw [parts, Except.ok.injEq] at built
  exact ⟨_, built ▸ canonical⟩

/-- A function has no canonical graph for one reason only, that it has no instruction. -/
theorem canonicalize_total (function : Function) (body : List Instruction) (name : String)
    (hasBody : function.body.outcome = .ok body) (hasName : function.name.outcome = .ok name) :
    (∀ fault, function.canonicalize.outcome = .error fault ↔
      body = [] ∧ fault = .graph (.noInstruction name)) ∧
    (body ≠ [] → ∃ graph, function.canonicalize.outcome = .ok graph ∧ graph.check = .ok () ∧
      graph.Canonical (Code.split body)) := by
  have filled : body ≠ [] → ∃ graph, function.canonicalize.outcome = .ok graph ∧
      graph.Canonical (Code.split body) := by
    intro nonempty
    rw [canonicalize_outcome hasBody hasName]
    exact Code.build_canonical function.format.classes?_isSome name nonempty (body_nodup hasBody)
      function.labels function.address
  refine ⟨?_, ?_⟩
  · intro fault
    by_cases empty : body = []
    · subst empty
      rw [canonicalize_empty hasBody hasName]
      simp [eq_comm]
    · obtain ⟨graph, canonical, _⟩ := filled empty
      simp [canonical, empty]
  · intro nonempty
    obtain ⟨graph, canonical, isCanonical⟩ := filled nonempty
    exact ⟨graph, canonical, canonicalize_check canonical, isCanonical⟩

/-- Cases out of order with one of them twice, a call that may unwind to the start, and a return that
nothing leads to. -/
def casesBody : List Instruction :=
  [{ address := 0, mnemonic := "switch", text := "switch", flow := .switch
     targets := [6, 4, 6, 4], caseValues := [none, some 3, some (-1), some 3] },
   { address := 2, mnemonic := "ret", text := "ret", flow := .ret },
   { address := 4, mnemonic := "invoke", text := "invoke", flow := .callWithUnwind
     targets := [6, 0] },
   { address := 6, mnemonic := "ret", text := "ret", flow := .ret }]

def casesFunction : Function :=
  { rawName := "cases", name := pure "cases", address := 0, format := .llvmBitcode
    labels := [(6, "done")], stream := pure casesBody }

theorem canonicalize_total_cases :
    casesFunction.body.outcome = .ok casesBody ∧ casesBody ≠ [] ∧
    (∀ fault, casesFunction.canonicalize.outcome = .error fault ↔
      casesBody = [] ∧ fault = .graph (.noInstruction "cases")) ∧
    (casesBody ≠ [] → ∃ graph, casesFunction.canonicalize.outcome = .ok graph ∧
      graph.check = .ok () ∧ graph.Canonical (Code.split casesBody)) := by
  have hasBody : casesFunction.body.outcome = .ok casesBody := by rfl
  refine ⟨hasBody, by simp [casesBody], ?_⟩
  exact canonicalize_total casesFunction casesBody "cases" hasBody rfl

end Function

end FlowAlign
