import Mathlib
import FlowAlign.Proofs.Align.Congruence
import FlowAlign.Proofs.Code.Canonical
import FlowAlign.Proofs.Code.Renaming

/-!
Addresses and names do not reach a canonical graph. A renamed body has renamed blocks in the same
order, so that both graphs have the same shape, and comparisons with any third function agree.
-/

namespace FlowAlign

namespace Code

structure BlockRenamed (rename : Int → Int) (inside inside' : List Int)
    (first second : CodeBlock) : Prop where
  address_eq : second.address = rename first.address
  instructions : List.Forall₂ (Instruction.Renamed rename inside inside') first.instructions
    second.instructions
  exits_eq : second.exits = first.exits.map (moved rename)
  address_mem : first.address ∈ inside
  target_mem : ∀ exit ∈ first.exits, exit.target ∈ inside

variable {rename : Int → Int} {inside inside' : List Int}

section Split

theorem following_renamed {groups groups' : List (List Instruction)}
    (related : List.Forall₂ (List.Forall₂ (Instruction.Renamed rename inside inside')) groups groups')
    (members : addresses groups.flatten ⊆ inside) :
    Option.Rel (TargetRenamed rename inside inside')
      (groups.head?.bind fun following => following.head?.map Instruction.address)
      (groups'.head?.bind fun following => following.head?.map Instruction.address) := by
  cases related with
  | nil => exact .none
  | cons group _ =>
      cases group with
      | nil => exact .none
      | @cons first first' _ _ pair _ =>
          have inner : first.address ∈ inside := members (by simp [addresses])
          exact .some ⟨fun _ => pair.address_eq, fun outer => absurd inner outer⟩

theorem blocksOf_renamed (insideMap : inside' = inside.map rename)
    (apart : Separates rename inside) {groups groups' : List (List Instruction)}
    (related : List.Forall₂ (List.Forall₂ (Instruction.Renamed rename inside inside')) groups groups')
    (members : addresses groups.flatten ⊆ inside) :
    List.Forall₂ (BlockRenamed rename inside inside') (blocksOf inside groups)
      (blocksOf inside' groups') := by
  induction related with
  | nil => exact .nil
  | @cons group group' rest rest' sameGroup sameRest ih =>
      have fewer : addresses rest.flatten ⊆ inside := by
        intro address member
        apply members
        simp only [addresses, List.flatten_cons, List.map_append, List.mem_append] at member ⊢
        exact Or.inr member
      have after := following_renamed sameRest fewer
      have others := ih fewer
      cases sameGroup with
      | nil => simpa only [blocksOf, List.head?_nil] using others
      | @cons first first' _ _ pair tail =>
          have lasts := getLast?_related (List.Forall₂.cons pair tail)
          simp only [blocksOf, List.head?_cons, List.getLast?_cons] at lasts ⊢
          obtain ⟨lastPair⟩ := lasts
          refine .cons ⟨pair.address_eq, .cons pair tail,
            exits_map insideMap apart lastPair after, members (by simp [addresses]), ?_⟩ others
          intro exit member
          exact exits_inside member

variable {blocks blocks' : List CodeBlock}

theorem isUnresolved_eq {first second : CodeBlock}
    (renamed : BlockRenamed rename inside inside' first second) :
    isUnresolved second = isUnresolved first := by
  have flows : second.lastFlow? = first.lastFlow? := by
    have lasts := getLast?_related renamed.instructions
    simp only [CodeBlock.lastFlow?]
    generalize first.instructions.getLast? = last at lasts ⊢
    generalize second.instructions.getLast? = last' at lasts ⊢
    cases lasts with
    | none => rfl
    | some pair => simp [pair.flow_eq]
  simp only [isUnresolved, flows, renamed.exits_eq, List.isEmpty_map]

theorem blockAddresses_map
    (related : List.Forall₂ (BlockRenamed rename inside inside') blocks blocks') :
    blocks'.map CodeBlock.address = (blocks.map CodeBlock.address).map rename := by
  rw [List.map_map]
  exact map_related (fun _ _ pair => pair.address_eq) related

theorem blockAddresses_subset
    (related : List.Forall₂ (BlockRenamed rename inside inside') blocks blocks') :
    blocks.map CodeBlock.address ⊆ inside := by
  induction related with
  | nil => simp
  | cons pair _ ih => exact List.cons_subset.mpr ⟨pair.address_mem, ih⟩

theorem exitTargets_map
    (related : List.Forall₂ (BlockRenamed rename inside inside') blocks blocks') :
    (blocks'.flatMap fun block => block.exits.map Exit.target) =
      (blocks.flatMap fun block => block.exits.map Exit.target).map rename := by
  induction related with
  | nil => rfl
  | cons pair _ ih =>
      simp only [List.flatMap_cons, List.map_append, ih, pair.exits_eq, List.map_map]
      rfl

theorem exitTargets_subset
    (related : List.Forall₂ (BlockRenamed rename inside inside') blocks blocks') :
    (blocks.flatMap fun block => block.exits.map Exit.target) ⊆ inside := by
  induction related with
  | nil => simp
  | cons pair _ ih =>
      rw [List.flatMap_cons, List.append_subset]
      refine ⟨?_, ih⟩
      intro target member
      obtain ⟨exit, isExit, rfl⟩ := List.mem_map.mp member
      exact pair.target_mem exit isExit

theorem orphans_map (apart : Separates rename inside)
    (related : List.Forall₂ (BlockRenamed rename inside inside') blocks blocks') :
    orphans blocks' = (orphans blocks).map rename := by
  have entry : (blocks'.take 1).map CodeBlock.address =
      ((blocks.take 1).map CodeBlock.address).map rename := by
    simp only [List.map_take, blockAddresses_map related]
  simp only [orphans, entry, exitTargets_map related, blockAddresses_map related, ← List.map_append]
  rw [List.filter_map]
  congr 1
  apply List.filter_congr
  intro address member
  have known := blockAddresses_subset related
  rw [Function.comp_apply, contains_map]
  -- every address that is compared is one of the body, where the renaming is injective
  apply apart.of_subset
  refine List.cons_subset.mpr ⟨known member, List.append_subset.mpr ⟨?_, exitTargets_subset related⟩⟩
  exact fun _ first => known (List.map_subset _ (List.take_subset 1 blocks) first)

theorem connectOrphans_renamed (apart : Separates rename inside)
    (related : List.Forall₂ (BlockRenamed rename inside inside') blocks blocks') :
    List.Forall₂ (BlockRenamed rename inside inside') (connectOrphans blocks)
      (connectOrphans blocks') := by
  have inner : orphans blocks ⊆ inside :=
    fun _ member => blockAddresses_subset related (List.mem_filter.mp member).1
  simp only [connectOrphans, orphans_map apart related, List.isEmpty_map]
  split
  · exact related
  · simp only [List.forall₂_map_left_iff, List.forall₂_map_right_iff]
    refine related.imp ?_
    intro first second renamed
    simp only [isUnresolved_eq renamed]
    split
    · refine ⟨renamed.address_eq, renamed.instructions, ?_, renamed.address_mem, ?_⟩
      · simp only [List.map_map]
        rfl
      · simpa using fun target member => inner member
    · exact renamed

end Split

/-- A renamed body is split into renamed blocks. -/
theorem split_renamed {body body' : List Instruction} (renamed : Renamed rename body body') :
    List.Forall₂ (BlockRenamed rename (addresses body) (addresses body')) (split body)
      (split body') := by
  have insideMap := addresses_map renamed.instructions
  have groups := cut_renamed (leaders_subset body) renamed.apart renamed.instructions
    (List.Subset.refl _)
  rw [← leaders_map renamed] at groups
  apply connectOrphans_renamed renamed.apart
  apply blocksOf_renamed insideMap renamed.apart groups
  rw [flatten_cut]
  exact List.Subset.refl _

section Order

variable {blocks blocks' : List CodeBlock}

theorem lastIndex?_map {value : Int} : ∀ {values : List Int},
    Separates rename (value :: values) →
    lastIndex? (rename value) (values.map rename) = lastIndex? value values := by
  intro values
  induction values with
  | nil =>
      intro _
      rfl
  | cons first rest ih =>
      intro apart
      have fewer : Separates rename (value :: rest) :=
        apart.of_subset (List.cons_subset_cons _ (List.subset_cons_self _ _))
      have same : rename first = rename value ↔ first = value :=
        ⟨apart first (by simp) value (by simp), fun equal => equal ▸ rfl⟩
      simp only [List.map_cons, lastIndex?, ih fewer, same]

theorem position?_renamed (apart : Separates rename inside)
    (related : List.Forall₂ (BlockRenamed rename inside inside') blocks blocks') {address : Int}
    (inner : address ∈ inside) :
    position? blocks' (rename address) = position? blocks address := by
  rw [position?, position?, blockAddresses_map related]
  apply lastIndex?_map
  exact apart.of_subset (List.cons_subset.mpr ⟨inner, blockAddresses_subset related⟩)

variable (apart : Separates rename inside)
  (related : List.Forall₂ (BlockRenamed rename inside inside') blocks blocks')

include apart related

theorem exitPosition_renamed {exit : Exit} (inner : exit.target ∈ inside) :
    exitPosition blocks' (moved rename exit) = exitPosition blocks exit := by
  rw [exitPosition, exitPosition, moved, position?_renamed apart related inner]

theorem successorsOf_renamed (position : Nat) {first second : CodeBlock}
    (pair : BlockRenamed rename inside inside' first second) :
    successorsOf blocks' position second = successorsOf blocks position first := by
  rw [successorsOf, successorsOf, pair.exits_eq, List.map_map]
  congr 1
  apply List.map_congr_left
  intro exit member
  simp only [Function.comp_apply, exitPosition_renamed apart related (pair.target_mem exit member)]
  rfl

theorem linearize_renamed (closed : Closed blocks) (closed' : Closed blocks')
    (nonempty : blocks ≠ []) : linearize blocks' = linearize blocks := by
  have lengths := related.length_eq
  have nonempty' : blocks' ≠ [] := by
    rw [← List.length_pos_iff, ← lengths]
    exact List.length_pos_iff.mpr nonempty
  have next : nextOf blocks' = nextOf blocks := by
    funext position
    rw [nextOf, nextOf, map_related _ (zipIdx_related related 0)]
    rintro ⟨first, place⟩ ⟨second, place'⟩ ⟨pair, rfl⟩
    exact successorsOf_renamed apart related place' pair
  rw [linearize_eq closed nonempty, linearize_eq closed' nonempty', next, lengths]

theorem canonicalEdges_renamed (order : List Nat) (position : Nat) {first second : CodeBlock}
    (pair : BlockRenamed rename inside inside' first second) :
    canonicalEdges blocks' order position second = canonicalEdges blocks order position first := by
  simp only [canonicalEdges, pair.exits_eq, List.filterMap_map]
  congr 1
  apply List.filterMap_congr
  intro exit member
  simp only [Function.comp_apply, moved,
    position?_renamed apart related (pair.target_mem exit member)]

end Order

section Tokens

theorem literal_alike {first second : Operand} (alike : Operand.Alike first second) :
    second.literal.map Literal.key = first.literal.map Literal.key := by
  simp only [Operand.literal, alike.type_eq]
  split
  · rename_i kept
    apply alike.value_eq
    cases kind : first.type <;> simp_all [OperandType.isConstant]
  · rfl

theorem token?_renamed (family : Family) {first second : Instruction}
    (pair : Instruction.Renamed rename inside inside' first second) :
    (token? family second).map Token.key = (token? family first).map Token.key := by
  have types : second.operands.map Operand.type = first.operands.map Operand.type :=
    map_related (fun _ _ alike => alike.type_eq) pair.operands
  have roles : (second.operands.map fun operand => operand.type.role) =
      first.operands.map fun operand => operand.type.role :=
    map_related (fun _ _ alike => by rw [alike.type_eq]) pair.operands
  have literals : (second.operands.map fun operand => operand.literal.map Literal.key) =
      first.operands.map fun operand => operand.literal.map Literal.key :=
    map_related (fun _ _ alike => literal_alike alike) pair.operands
  have class_eq : Opcode.opcodeClass? family second = Opcode.opcodeClass? family first := by
    simp only [Opcode.opcodeClass?, pair.mnemonic_eq, pair.flow_eq, types]
  simp only [token?, pair.undecoded_eq, class_eq]
  split
  · rename_i undecoded
    simp [pair.text_eq undecoded]
  · simp only [Option.map_map, Function.comp_def, Token.key, List.map_map, roles, literals]

theorem tokenOf_renamed (family : Family) {first second : Instruction}
    (pair : Instruction.Renamed rename inside inside' first second) :
    (tokenOf family second).key = (tokenOf family first).key := by
  have keys := token?_renamed family pair
  rw [tokenOf, tokenOf, ← Option.getD_map Token.key, ← Option.getD_map Token.key, keys]

variable {blocks blocks' : List CodeBlock}

theorem ordered_renamed
    (related : List.Forall₂ (BlockRenamed rename inside inside') blocks blocks')
    (order : List Nat) :
    List.Forall₂ (BlockRenamed rename inside inside')
      (order.filterMap fun position => blocks[position]?)
      (order.filterMap fun position => blocks'[position]?) := by
  refine List.rel_filterMap ?_ (List.forall₂_same.mpr fun _ _ => rfl)
  rintro position _ rfl
  exact getElem?_related related position

/-- Blocks that are renamed give a graph of the same shape. -/
theorem graphOf_renamed (apart : Separates rename inside)
    (related : List.Forall₂ (BlockRenamed rename inside inside') blocks blocks')
    (family : Family) (name name' : String) (labels labels' : List (Int × String))
    (base base' : Int) (order : List Nat) :
    (graphOf name' blocks' family labels' base' order).shape =
      (graphOf name blocks family labels base order).shape := by
  rw [FlowGraph.shape, FlowGraph.shape, graphOf, graphOf, List.map_map, List.map_map]
  refine map_related ?_ (zipIdx_related (ordered_renamed related order) 0)
  rintro ⟨first, place⟩ ⟨second, place'⟩ ⟨pair, rfl⟩
  have keys : (second.instructions.map fun instruction => (tokenOf family instruction).key) =
      first.instructions.map fun instruction => (tokenOf family instruction).key :=
    map_related (fun _ _ renamed => tokenOf_renamed family renamed) pair.instructions
  simp only [Function.comp_apply, canonicalBlock, Block.shape, List.map_map, Function.comp_def,
    canonicalEdges_renamed apart related order place' pair, keys]

end Tokens

end Code

namespace Function

variable {rename : Int → Int} {first second : Function} {body body' : List Instruction}
  {name name' : String}

/-- Functions whose bodies are renamings of each other have canonical graphs of the same shape. -/
theorem canonicalize_shape (format : second.format = first.format)
    (firstBody : first.body.outcome = .ok body) (secondBody : second.body.outcome = .ok body')
    (firstName : first.name.outcome = .ok name) (secondName : second.name.outcome = .ok name')
    (renamed : Code.Renamed rename body body') (nonempty : body ≠ []) :
    ∃ graph graph', first.canonicalize.outcome = .ok graph ∧
      second.canonicalize.outcome = .ok graph' ∧ graph'.shape = graph.shape := by
  have related := Code.split_renamed renamed
  have closed := Code.split_closed body
  have closed' := Code.split_closed body'
  have filled := Code.split_ne_nil nonempty
  have filled' : Code.split body' ≠ [] := by
    rw [← List.length_pos_iff, ← related.length_eq]
    exact List.length_pos_iff.mpr filled
  have hasTable := first.format.classes?_isSome
  obtain ⟨order, linear, _⟩ := Code.linearize_spec closed filled
  have linear' : Code.linearize (Code.split body') = .ok order := by
    rw [Code.linearize_renamed renamed.apart related closed closed' filled, linear]
  obtain ⟨graph, built, _⟩ := Code.build_ok hasTable name closed filled first.labels first.address
  obtain ⟨graph', built', _⟩ := Code.build_ok hasTable name' closed' filled' second.labels
    second.address
  refine ⟨graph, graph', ?_, ?_, ?_⟩
  · rw [canonicalize_outcome firstBody firstName, built]
  · rw [canonicalize_outcome secondBody secondName, format, built']
  · rw [Code.build_outcome hasTable name filled first.labels first.address linear] at built
    rw [Code.build_outcome hasTable name' filled' second.labels second.address linear'] at built'
    obtain ⟨_, _, made⟩ := Outcome.bind_eq_ok built
    obtain ⟨_, _, made'⟩ := Outcome.bind_eq_ok built'
    rw [← Except.ok.inj made, ← Except.ok.inj made']
    exact Code.graphOf_renamed renamed.apart related _ _ _ _ _ _ _ _

/-- Two functions that no comparison tells apart: either both have a canonical graph or none has, the
graphs have the same shape, and next to any third function they have the same entries. -/
structure Indistinct (α : Type) [Quantity α] (first second : Function) : Prop where
  shape_eq : first.canonicalize.outcome.toOption.map FlowGraph.shape =
    second.canonicalize.outcome.toOption.map FlowGraph.shape
  primary_eq : ∀ (third : Function) (graph graph' other : FlowGraph) (options : Options α),
    first.canonicalize.outcome = .ok graph → second.canonicalize.outcome = .ok graph' →
    third.canonicalize.outcome = .ok other → Align.isDegraded options graph other = false →
    (Align.align options graph other).outcome.map Alignment.entries =
      (Align.align options graph' other).outcome.map Alignment.entries
  secondary_eq : ∀ (third : Function) (graph graph' other : FlowGraph) (options : Options α),
    first.canonicalize.outcome = .ok graph → second.canonicalize.outcome = .ok graph' →
    third.canonicalize.outcome = .ok other → Align.isDegraded options other graph = false →
    (Align.align options other graph).outcome.map Alignment.entries =
      (Align.align options other graph').outcome.map Alignment.entries

/-- Functions of one shape are told apart by no comparison that looks at costs. -/
theorem indistinct_of_shape {α : Type} [Quantity α]
    (shape_eq : first.canonicalize.outcome.toOption.map FlowGraph.shape =
      second.canonicalize.outcome.toOption.map FlowGraph.shape) : Indistinct α first second := by
  have formed : ∀ {function : Function} {graph : FlowGraph},
      function.canonicalize.outcome = .ok graph → graph.WellFormed :=
    fun canonical => FlowGraph.check_wellFormed (canonicalize_check canonical)
  have shapes : ∀ {graph graph' : FlowGraph}, first.canonicalize.outcome = .ok graph →
      second.canonicalize.outcome = .ok graph' → graph.shape = graph'.shape := by
    intro graph graph' canonical canonical'
    simpa [canonical, canonical', Except.toOption] using shape_eq
  refine ⟨shape_eq, ?_, ?_⟩
  · intro third graph graph' other options canonical canonical' isOther full
    exact Align.align_congr options (shapes canonical canonical') rfl (formed canonical)
      (formed isOther) (formed canonical') (formed isOther) full
  · intro third graph graph' other options canonical canonical' isOther full
    exact Align.align_congr options rfl (shapes canonical canonical') (formed isOther)
      (formed canonical) (formed isOther) (formed canonical') full

/-- Addresses, names and texts are not compared: a function and its renaming are indistinct, and both
have a canonical graph as soon as there is an instruction. -/
theorem canonicalize_renamed (α : Type) [Quantity α] (rename : Int → Int)
    (first second : Function) (body body' : List Instruction) (name name' : String)
    (format : second.format = first.format)
    (firstBody : first.body.outcome = .ok body) (secondBody : second.body.outcome = .ok body')
    (firstName : first.name.outcome = .ok name) (secondName : second.name.outcome = .ok name')
    (renamed : Code.Renamed rename body body') :
    Indistinct α first second ∧
      (body ≠ [] → ∃ graph graph', first.canonicalize.outcome = .ok graph ∧
        second.canonicalize.outcome = .ok graph') := by
  by_cases empty : body = []
  · subst empty
    obtain rfl : body' = [] := List.forall₂_nil_left_iff.mp renamed.instructions
    refine ⟨indistinct_of_shape ?_, fun filled => absurd rfl filled⟩
    rw [canonicalize_empty firstBody firstName, canonicalize_empty secondBody secondName]
    rfl
  · obtain ⟨graph, graph', canonical, canonical', shapes⟩ :=
      canonicalize_shape format firstBody secondBody firstName secondName renamed empty
    refine ⟨indistinct_of_shape ?_, fun _ => ⟨graph, graph', canonical, canonical'⟩⟩
    simp [canonical, canonical', Except.toOption, shapes]

/-- A loop that counts in a register and leaves by a jump to somewhere else. -/
def countBody : List Instruction :=
  [{ address := 0, mnemonic := "add", text := "add eax, 1"
     operands := [{ type := .register, text := "eax" },
       { type := .immediate, value := some (.int 1), text := "1" }] },
   { address := 3, mnemonic := "jne", text := "jne 0", flow := .condJump, targets := [0] },
   { address := 5, mnemonic := "jmp", text := "jmp 64", flow := .jump, targets := [64] }]

/-- The same loop at another place, with another register and in other letters. -/
def movedBody : List Instruction :=
  [{ address := 4096, mnemonic := "ADD", text := "ADD ecx, 1"
     operands := [{ type := .register, text := "ecx" },
       { type := .immediate, value := some (.int 1), text := "1" }] },
   { address := 4099, mnemonic := "JNE", text := "JNE 4096", flow := .condJump, targets := [4096] },
   { address := 4101, mnemonic := "JMP", text := "JMP 8000", flow := .jump, targets := [8000] }]

def countFunction : Function :=
  { rawName := "count", name := pure "count", address := 0, format := .x64
    stream := pure countBody }

def movedFunction : Function :=
  { rawName := "_Z3runv", name := pure "run()", address := 4096, format := .x64
    labels := [(4096, "again")], stream := pure movedBody }

theorem movedBody_renamed : Code.Renamed (· + 4096) countBody movedBody where
  apart := by
    intro first _ second _ same
    simpa using same
  instructions := by
    refine .cons ⟨rfl, rfl, rfl, by decide, .cons ⟨rfl, by simp⟩ (.cons ⟨rfl, by simp⟩ .nil), by simp,
      .nil, rfl⟩ (.cons ⟨rfl, rfl, rfl, by decide, .nil, by simp, .cons ⟨?_, ?_⟩ .nil, rfl⟩
      (.cons ⟨rfl, rfl, rfl, by decide, .nil, by simp, .cons ⟨?_, ?_⟩ .nil, rfl⟩ .nil))
    all_goals decide

theorem canonicalize_renamed_moved :
    Code.Renamed (· + 4096) countBody movedBody ∧
      Indistinct Rat countFunction movedFunction ∧
      (countBody ≠ [] → ∃ graph graph', countFunction.canonicalize.outcome = .ok graph ∧
        movedFunction.canonicalize.outcome = .ok graph') :=
  ⟨movedBody_renamed, canonicalize_renamed Rat (· + 4096) countFunction movedFunction countBody
    movedBody "count" "run()" rfl rfl rfl rfl rfl movedBody_renamed⟩

end Function

end FlowAlign
