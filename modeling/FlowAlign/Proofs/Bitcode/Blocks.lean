import Mathlib
import FlowAlign.Proofs.Bitcode.Terminator
import FlowAlign.Proofs.Code.Formation
import FlowAlign.Proofs.Code.Structured
import FlowAlign.Proofs.Load.Native

/-!
Blocks of LLVM functions. Extraction writes them one behind the other and numbers their instructions;
the blocks that are found again in this stream are the LLVM blocks, with the ways out that their
terminators name, and shown under their labels.
-/

namespace FlowAlign.Bitcode

/-- Functions as LLVM makes them: every block ends in its only terminator, labels differ, and an
operand that is a block carries the label of one of them. -/
structure WellFormed (function : FunctionValue) : Prop where
  ended : ∀ block ∈ function.blocks, ∃ inner last arcs, block.instructions = inner ++ [last] ∧
    (∀ instruction ∈ inner, instruction.opcode ∉ terminators) ∧ Names last arcs
  distinct : (blockLabels function.blocks).Nodup
  inside : ∀ block ∈ function.blocks, ∀ instruction ∈ block.instructions,
    ∀ value ∈ instruction.operands, value.kind = .basicBlock →
      value.label ∈ blockLabels function.blocks

/-- Whether an operand can be read, with the names that a demangler makes readable. -/
def Readable (demangler : Symbol.Demangler) (value : Value) : Prop :=
  ∀ toolkit : Toolkit, toolkit.demangler = demangler →
    ∃ result, (operand value toolkit).outcome = .ok result

/-- What extraction makes of an instruction with a number. -/
structure Extracts (starts : Starts) (source : InstructionValue × Nat) (made : Instruction) :
    Prop where
  address : made.address = source.2
  text : made.text = Text.trim source.1.text
  mnemonic : made.mnemonic = mnemonicOf source.1.opcode made.text
  operands : List.Forall₂
    (fun value read => ∃ before after, (operand value before).outcome = .ok (read, after))
    source.1.operands made.operands
  branching : ∃ found, branching starts source.1.opcode source.1.operands = .ok found ∧
    made.flow = found.flow ∧ made.targets = found.targets ∧ made.caseValues = found.caseValues

section Reading

theorem operands_read : ∀ {values : List Value} {toolkit after : Toolkit} {results : List Operand},
    ((values.mapM operand) toolkit).outcome = .ok (results, after) →
    List.Forall₂ (fun value read =>
      ∃ before after, (operand value before).outcome = .ok (read, after))
      values results := by
  intro values
  induction values with
  | nil =>
      intro toolkit after results succeeded
      obtain ⟨rfl, _⟩ := Prod.mk.inj (Except.ok.inj succeeded)
      exact .nil
  | cons value rest ih =>
      intro toolkit after results succeeded
      rw [List.mapM_cons, Reading.outcome_bind] at succeeded
      obtain ⟨⟨first, between⟩, read, succeeded⟩ := Outcome.bind_eq_ok succeeded
      rw [Reading.outcome_bind] at succeeded
      obtain ⟨⟨others, later⟩, readOthers, succeeded⟩ := Outcome.bind_eq_ok succeeded
      obtain ⟨rfl, _⟩ := Prod.mk.inj (Except.ok.inj succeeded)
      exact .cons ⟨toolkit, between, read⟩ (ih readOthers)

theorem instruction_extracts {starts : Starts} {number : Nat} {value : InstructionValue}
    {toolkit after : Toolkit} {made : Instruction}
    (succeeded : (instruction starts number value toolkit).outcome = .ok (made, after)) :
    Extracts starts (value, number) made := by
  simp only [instruction, Reading.outcome_bind] at succeeded
  obtain ⟨⟨operands, later⟩, read, succeeded⟩ := Outcome.bind_eq_ok succeeded
  obtain ⟨⟨found, last⟩, branched, succeeded⟩ := Outcome.bind_eq_ok succeeded
  rw [Reading.outcome_except] at branched
  obtain ⟨found', branches, same⟩ := Outcome.bind_eq_ok branched
  obtain ⟨rfl, _⟩ := Prod.mk.inj (Except.ok.inj same)
  obtain ⟨rfl, _⟩ := Prod.mk.inj (Except.ok.inj succeeded)
  refine ⟨rfl, rfl, ?_, operands_read read, found', branches, rfl, rfl, rfl⟩
  dsimp only

theorem instructionsFrom_extracts {starts : Starts} : ∀ {values : List InstructionValue}
    {number : Nat} {toolkit after : Toolkit} {body : List Instruction},
    (instructionsFrom starts number values toolkit).outcome = .ok (body, after) →
    List.Forall₂ (Extracts starts) (values.zipIdx number) body := by
  intro values
  induction values with
  | nil =>
      intro number toolkit after body succeeded
      obtain ⟨rfl, _⟩ := Prod.mk.inj (Except.ok.inj succeeded)
      exact .nil
  | cons value rest ih =>
      intro number toolkit after body succeeded
      simp only [instructionsFrom, Reading.outcome_bind] at succeeded
      obtain ⟨⟨first, between⟩, extracted, succeeded⟩ := Outcome.bind_eq_ok succeeded
      obtain ⟨⟨others, later⟩, extractedOthers, succeeded⟩ := Outcome.bind_eq_ok succeeded
      obtain ⟨rfl, _⟩ := Prod.mk.inj (Except.ok.inj succeeded)
      exact .cons (instruction_extracts extracted) (ih extractedOthers)

/-- Readings that leave the demangler as it is. -/
def Keeps {β : Type} (run : Reading β) : Prop :=
  ∀ toolkit result, (run toolkit).outcome = .ok result → result.2.demangler = toolkit.demangler

theorem Keeps.pure {β : Type} (value : β) : Keeps (pure value) := by
  intro toolkit result succeeded
  rw [← Except.ok.inj succeeded]

theorem Keeps.bind {β γ : Type} {first : Reading β} {next : β → Reading γ} (keeps : Keeps first)
    (keeps' : ∀ value, Keeps (next value)) : Keeps (first >>= next) := by
  intro toolkit result succeeded
  rw [Reading.outcome_bind] at succeeded
  obtain ⟨between, early, late⟩ := Outcome.bind_eq_ok succeeded
  rw [keeps' _ _ _ late, keeps _ _ early]

theorem Keeps.logged {β : Type} (run : Logged Fault β) : Keeps (liftM run) := by
  intro toolkit result succeeded
  rw [Reading.outcome_logged] at succeeded
  obtain ⟨_, _, same⟩ := Outcome.bind_eq_ok succeeded
  rw [← Except.ok.inj same]

theorem Keeps.except {β : Type} (run : Except Fault β) : Keeps (liftM run) :=
  .logged (.ofExcept run)

theorem Keeps.literalOfBits (bits : UInt64) : Keeps (Toolkit.literalOfBits bits) := by
  intro toolkit result succeeded
  rw [← Except.ok.inj succeeded]
  split
  · rfl
  · rfl

theorem Keeps.constantFloat (text : String) : Keeps (constantFloat text) := by
  refine .bind (.except _) ?_
  intro word
  split
  · exact .bind (.except _) fun bits => .literalOfBits bits
  · split
    · exact .literalOfBits _
    · exact .pure _

theorem Keeps.get : Keeps get := by
  intro toolkit result succeeded
  rw [← Except.ok.inj succeeded]

theorem Keeps.demangle (name : String) : Keeps (Toolkit.demangle name) :=
  .bind .get fun toolkit => .logged (Symbol.demangle toolkit.demangler name)

theorem Keeps.operand (value : Value) : Keeps (operand value) := by
  obtain ⟨kind, name, text⟩ := value
  cases kind with
  | constantInt => exact .bind (.except _) fun _ => .pure _
  | constantFloat => exact .bind (.constantFloat _) fun _ => .pure _
  | function => exact .bind (.demangle _) fun _ => .pure _
  | _ => exact .pure _

theorem operands_readable {demangler : Symbol.Demangler} :
    ∀ {values : List Value} {toolkit : Toolkit},
    (∀ value ∈ values, Readable demangler value) → toolkit.demangler = demangler →
    ∃ results after, ((values.mapM operand) toolkit).outcome = .ok (results, after) ∧
      after.demangler = demangler := by
  intro values
  induction values with
  | nil =>
      intro toolkit _ same
      exact ⟨[], toolkit, rfl, same⟩
  | cons value rest ih =>
      intro toolkit readable same
      obtain ⟨⟨first, between⟩, read⟩ := readable value List.mem_cons_self toolkit same
      have kept := (Keeps.operand value _ _ read).trans same
      obtain ⟨others, after, readOthers, kept'⟩ :=
        ih (fun other member => readable other (List.mem_cons_of_mem _ member)) kept
      refine ⟨first :: others, after, ?_, kept'⟩
      simp only [List.mapM_cons, Reading.outcome_bind, read, readOthers, Outcome.ok_bind]
      rfl

theorem instruction_readable {starts : Starts} {demangler : Symbol.Demangler}
    {value : InstructionValue} {toolkit : Toolkit} {found : Branching}
    (readable : ∀ operand ∈ value.operands, Readable demangler operand)
    (branched : branching starts value.opcode value.operands = .ok found)
    (same : toolkit.demangler = demangler) (number : Nat) :
    ∃ made after, (instruction starts number value toolkit).outcome = .ok (made, after) ∧
      after.demangler = demangler := by
  obtain ⟨operands, after, read, kept⟩ := operands_readable readable same
  refine ⟨{ address := number
            mnemonic := mnemonicOf value.opcode (Text.trim value.text)
            text := Text.trim value.text
            operands := operands
            flow := found.flow
            targets := found.targets
            caseValues := found.caseValues }, after, ?_, kept⟩
  simp only [instruction, Reading.outcome_bind, read, Outcome.ok_bind, Reading.outcome_except,
    branched, Reading.outcome_pure]

theorem instructionsFrom_readable {starts : Starts} {demangler : Symbol.Demangler} :
    ∀ {values : List InstructionValue} {toolkit : Toolkit} (number : Nat),
    (∀ value ∈ values, ∀ operand ∈ value.operands, Readable demangler operand) →
    (∀ value ∈ values, ∃ found, branching starts value.opcode value.operands = .ok found) →
    toolkit.demangler = demangler →
    ∃ body after, (instructionsFrom starts number values toolkit).outcome = .ok (body, after) := by
  intro values
  induction values with
  | nil =>
      intro toolkit number _ _ _
      exact ⟨[], toolkit, rfl⟩
  | cons value rest ih =>
      intro toolkit number readable branches same
      obtain ⟨found, branched⟩ := branches value List.mem_cons_self
      obtain ⟨made, between, extracted, kept⟩ :=
        instruction_readable (readable value List.mem_cons_self) branched same number
      obtain ⟨body, after, others⟩ := ih (number + 1)
        (fun other member => readable other (List.mem_cons_of_mem _ member))
        (fun other member => branches other (List.mem_cons_of_mem _ member)) kept
      refine ⟨made :: body, after, ?_⟩
      simp only [instructionsFrom, Reading.outcome_bind, extracted, others, Outcome.ok_bind,
        Reading.outcome_pure]

end Reading

section Groups

/-- Instructions that are extracted one behind the other come in the groups of their blocks. -/
theorem exists_groups {starts : Starts} : ∀ {blocks : List BlockValue} {number : Nat}
    {body : List Instruction},
    List.Forall₂ (Extracts starts) ((blocks.flatMap BlockValue.instructions).zipIdx number) body →
    ∃ groups : List (List Instruction), body = groups.flatten ∧ groups.length = blocks.length ∧
      ∀ (position : Nat) (block : BlockValue) (group : List Instruction),
        blocks[position]? = some block → groups[position]? = some group →
          List.Forall₂ (Extracts starts)
            (block.instructions.zipIdx (number + startAt blocks position)) group := by
  intro blocks
  induction blocks with
  | nil =>
      intro number body extracted
      cases extracted
      exact ⟨[], rfl, rfl, by simp⟩
  | cons block rest ih =>
      intro number body extracted
      rw [List.flatMap_cons, List.zipIdx_append] at extracted
      obtain ⟨front, back, rfl, extractedFront, extractedBack⟩ := append_related extracted
      obtain ⟨groups, rfl, count, each⟩ := ih extractedBack
      refine ⟨front :: groups, rfl, ?_, ?_⟩
      · rw [List.length_cons, count, List.length_cons]
      · intro position block' group isBlock isGroup
        cases position with
        | zero =>
            obtain rfl : block = block' := Option.some.inj isBlock
            obtain rfl : front = group := Option.some.inj isGroup
            simpa [startAt] using extractedFront
        | succ position =>
            have later := each position block' group isBlock isGroup
            rwa [startAt_succ, ← Nat.add_assoc]

theorem flatMap_addresses {starts : Starts} {values : List InstructionValue}
    {body : List Instruction} (extracted : List.Forall₂ (Extracts starts) (values.zipIdx 0) body) :
    (Code.addresses body).Nodup := by
  have numbers : Code.addresses body = (values.zipIdx 0).map fun source => (source.2 : Int) :=
    map_related (fun _ _ made => made.address) extracted
  have split : (values.zipIdx 0).map (fun source => (source.2 : Int)) =
      ((values.zipIdx 0).map Prod.snd).map Nat.cast := by
    rw [List.map_map]
    rfl
  rw [numbers, split, List.zipIdx_map_snd]
  exact (List.nodup_range' ..).map Nat.cast_injective

/-- An instruction that ends a block and leads where arcs lead. -/
structure Aims (blocks : List BlockValue) (arcs : List Arc) (made : Instruction) : Prop where
  terminates : made.flow.isTerminator = true
  targets : made.targets = arcs.map fun arc => startOf blocks arc.label
  resolved : made.flow = .indirectJump → arcs ≠ []
  exits : ∀ next, Code.namedExits made next = arcs.map (Arc.exit blocks)

variable {function : FunctionValue} (formed : WellFormed function)

include formed

theorem Extracts.aims {block : BlockValue} (isBlock : block ∈ function.blocks)
    {last : InstructionValue} (isLast : last ∈ block.instructions) {arcs : List Arc}
    (names : Names last arcs) {number : Nat} {made : Instruction}
    (extracted : Extracts (starts function) (last, number) made) :
    Aims function.blocks arcs made := by
  obtain ⟨found, branches, follows⟩ :=
    branching_names formed.distinct names (formed.inside block isBlock last isLast)
  obtain ⟨found', branches', flow, targets, values⟩ := extracted.branching
  rw [branches, Except.ok.injEq] at branches'
  subst branches'
  refine ⟨?_, ?_, ?_, ?_⟩
  · rw [flow, follows.terminates]
  · rw [targets, follows.targets]
  · rw [flow]
    exact follows.resolved
  · exact follows.exits made flow targets values

/-- A group that is extracted from a block ends as the block does. -/
theorem group_ended {block : BlockValue} (isBlock : block ∈ function.blocks) {number : Nat}
    {group : List Instruction}
    (extracted : List.Forall₂ (Extracts (starts function)) (block.instructions.zipIdx number) group) :
    ∃ inner made last, group = inner ++ [made] ∧
      (∀ instruction ∈ inner, instruction.flow.isTerminator = false) ∧
      block.instructions.getLast? = some last ∧ (∃ arcs, Names last arcs) ∧
      ∀ arcs, Names last arcs → Aims function.blocks arcs made := by
  obtain ⟨inner, last, arcs, split, quiet, names⟩ := formed.ended block isBlock
  have isLast : last ∈ block.instructions := by rw [split]; simp
  rw [split, List.zipIdx_append] at extracted
  obtain ⟨front, back, rfl, extractedFront, extractedBack⟩ := append_related extracted
  rw [List.zipIdx_cons, List.zipIdx_nil] at extractedBack
  obtain ⟨made, rest, extractedLast, isRest, rfl⟩ := List.forall₂_cons_left_iff.mp extractedBack
  rw [List.forall₂_nil_left_iff.mp isRest]
  refine ⟨front, made, last, rfl, ?_, by rw [split]; simp, ⟨arcs, names⟩, ?_⟩
  · intro instruction member
    obtain ⟨⟨source, place⟩, isSource, extractedOne⟩ := mem_related extractedFront instruction member
    obtain ⟨found, branches, flow, _⟩ := extractedOne.branching
    obtain ⟨flow', goesOn, branches'⟩ := branching_inner (starts function)
      (quiet source (List.fst_mem_of_mem_zipIdx isSource)) source.operands
    rw [branches, Except.ok.injEq] at branches'
    rw [flow, branches']
    exact goesOn
  · exact fun arcs names => extractedLast.aims formed isBlock isLast names

end Groups

/-- The groups of instructions that are extracted from the blocks of a function, in order. -/
structure Extracted (function : FunctionValue) (groups : List (List Instruction)) : Prop where
  count : groups.length = function.blocks.length
  each : ∀ (position : Nat) (block : BlockValue) (group : List Instruction),
    function.blocks[position]? = some block → groups[position]? = some group →
      List.Forall₂ (Extracts (starts function))
        (block.instructions.zipIdx (startAt function.blocks position)) group
  distinct : (Code.addresses groups.flatten).Nodup

namespace Extracted

variable {function : FunctionValue} (formed : WellFormed function)
  {groups : List (List Instruction)} (extracted : Extracted function groups)

theorem exists_block {groups : List (List Instruction)} (extracted : Extracted function groups)
    {position : Nat} {group : List Instruction} (isGroup : groups[position]? = some group) :
    ∃ block, function.blocks[position]? = some block := by
  have below := (List.getElem?_eq_some_iff.mp isGroup).1
  rw [extracted.count] at below
  exact ⟨_, List.getElem?_eq_getElem below⟩

include formed extracted

theorem head_address {position : Nat} {group : List Instruction}
    (isGroup : groups[position]? = some group) :
    group.head?.map Instruction.address = some (startAt function.blocks position : Int) := by
  obtain ⟨block, isBlock⟩ := extracted.exists_block isGroup
  have made := extracted.each position block group isBlock isGroup
  obtain ⟨inner, last, arcs, split, _, _⟩ := formed.ended block (List.mem_of_getElem? isBlock)
  obtain ⟨first, rest, isFirst⟩ : ∃ first rest, block.instructions = first :: rest :=
    List.exists_cons_of_ne_nil (by rw [split]; simp)
  rw [isFirst, List.zipIdx_cons] at made
  obtain ⟨start, others, madeFirst, _, rfl⟩ := List.forall₂_cons_left_iff.mp made
  rw [List.head?_cons, Option.map_some, madeFirst.address]

theorem startOf_mem_heads {label : String} (inside : label ∈ blockLabels function.blocks) :
    startOf function.blocks label ∈ Code.heads groups := by
  have found := List.getElem?_idxOf inside
  obtain ⟨below, _⟩ := getElem?_blockLabels found
  rw [← extracted.count] at below
  have isGroup := List.getElem?_eq_getElem below
  exact List.mem_filterMap.mpr
    ⟨_, List.mem_of_getElem? isGroup, extracted.head_address formed isGroup⟩

theorem structured : Code.Structured groups := by
  have place : ∀ instruction ∈ groups.flatten, instruction.flow.isTerminator = true →
      ∃ arcs, Aims function.blocks arcs instruction ∧
        ∀ arc ∈ arcs, arc.label ∈ blockLabels function.blocks := by
    intro instruction member terminates
    obtain ⟨group, isGroup, inGroup⟩ := List.mem_flatten.mp member
    obtain ⟨position, isGroup⟩ := List.mem_iff_getElem?.mp isGroup
    obtain ⟨block, isBlock⟩ := extracted.exists_block isGroup
    have memberBlock := List.mem_of_getElem? isBlock
    obtain ⟨inner, made, last, rfl, quiet, isLast, ⟨arcs, names⟩, aims⟩ :=
      group_ended formed memberBlock (extracted.each position block group isBlock isGroup)
    -- only the last instruction of the group is a terminator
    rcases List.mem_append.mp inGroup with isInner | isMade
    · rw [quiet instruction isInner] at terminates
      cases terminates
    · rw [List.mem_singleton.mp isMade]
      refine ⟨arcs, aims arcs names, ?_⟩
      intro arc isArc
      obtain ⟨value, isOperand, isBlockOperand, label⟩ := names.operand isArc
      rw [label]
      exact formed.inside block memberBlock last (List.mem_of_getLast? isLast) value isOperand
        isBlockOperand
  refine ⟨?_, extracted.distinct, ?_, ?_⟩
  · intro group isGroup
    obtain ⟨position, isGroup⟩ := List.mem_iff_getElem?.mp isGroup
    obtain ⟨block, isBlock⟩ := extracted.exists_block isGroup
    obtain ⟨inner, made, last, rfl, quiet, _, ⟨arcs, names⟩, aims⟩ :=
      group_ended formed (List.mem_of_getElem? isBlock)
        (extracted.each position block group isBlock isGroup)
    exact ⟨inner, made, rfl, quiet, (aims arcs names).terminates⟩
  · intro instruction member terminates target isTarget
    obtain ⟨arcs, aims, labels⟩ := place instruction member terminates
    rw [aims.targets] at isTarget
    obtain ⟨arc, isArc, rfl⟩ := List.mem_map.mp isTarget
    exact extracted.startOf_mem_heads formed (labels arc isArc)
  · intro instruction member indirect none'
    obtain ⟨arcs, aims, _⟩ := place instruction member (by rw [indirect]; rfl)
    rw [aims.targets] at none'
    exact aims.resolved indirect (List.map_eq_nil_iff.mp none')

end Extracted

/-- A block of code that is an LLVM block again: it has the number of its first instruction, the same
instructions, and the ways out that its terminator names, each once. -/
structure Mirrors (function : FunctionValue) (position : Nat) (block : BlockValue)
    (code : CodeBlock) : Prop where
  address : code.address = startAt function.blocks position
  instructions : List.Forall₂ (Extracts (starts function))
    (block.instructions.zipIdx (startAt function.blocks position)) code.instructions
  exits : ∀ last arcs, block.instructions.getLast? = some last → Names last arcs →
    code.exits = (arcs.map (Arc.exit function.blocks)).eraseDups

theorem Extracted.mirrors {function : FunctionValue} (formed : WellFormed function)
    {groups : List (List Instruction)} (extracted : Extracted function groups) :
    (Code.split groups.flatten).length = function.blocks.length ∧
    ∀ (position : Nat) (block : BlockValue) (code : CodeBlock),
      function.blocks[position]? = some block → (Code.split groups.flatten)[position]? = some code →
      Mirrors function position block code := by
  obtain ⟨same, ways⟩ := (extracted.structured formed).split_eq
  refine ⟨?_, ?_⟩
  · rw [← extracted.count, ← List.length_map, same]
  · intro position block code isBlock isCode
    have isGroup : groups[position]? = some code.instructions := by
      rw [← same, List.getElem?_map, isCode, Option.map_some]
    have made := extracted.each position block _ isBlock isGroup
    obtain ⟨inner, last, next, split, head, exits⟩ := ways code (List.mem_of_getElem? isCode)
    refine ⟨?_, made, ?_⟩
    · rw [extracted.head_address formed isGroup] at head
      exact (Option.some.inj head).symm
    · intro source arcs isLast names
      obtain ⟨inner', last', source', split', _, isLast', _, aims⟩ :=
        group_ended formed (List.mem_of_getElem? isBlock) made
      obtain rfl : source = source' := Option.some.inj (isLast.symm.trans isLast')
      obtain rfl : last = last' := by
        have ends := split.symm.trans split'
        exact (List.append_inj' ends rfl).2 |> List.singleton_inj.mp
      rw [exits, (aims arcs names).exits]

section Labels

theorem startAt_lt : ∀ {blocks : List BlockValue} {first second : Nat},
    (∀ block ∈ blocks, block.instructions ≠ []) → first < second → first < blocks.length →
      startAt blocks first < startAt blocks second := by
  intro blocks
  induction blocks with
  | nil =>
      intro first second _ _ inside
      simp at inside
  | cons block rest ih =>
      intro first second filled before inside
      obtain ⟨second, rfl⟩ : ∃ less, second = less + 1 := ⟨second - 1, by omega⟩
      rw [startAt_succ]
      have here := List.length_pos_iff.mpr (filled block List.mem_cons_self)
      cases first with
      | zero =>
          have zero : startAt (block :: rest) 0 = 0 := rfl
          omega
      | succ first =>
          have later := ih (fun other member => filled other (List.mem_cons_of_mem _ member))
            (Nat.lt_of_succ_lt_succ before) (Nat.lt_of_succ_lt_succ inside)
          rw [startAt_succ]
          omega

theorem WellFormed.filled {function : FunctionValue} (formed : WellFormed function) :
    ∀ block ∈ function.blocks, block.instructions ≠ [] := by
  intro block isBlock
  obtain ⟨inner, last, _, split, _⟩ := formed.ended block isBlock
  rw [split]
  simp

theorem find?_labels {function : FunctionValue} (formed : WellFormed function) {position : Nat}
    (below : position < function.blocks.length) :
    Table.find? (labels function) (startAt function.blocks position : Int) =
      some (labelAt function.blocks position) := by
  apply Table.find?_collect
  · rw [starts_eq, List.map_map, List.map_map, List.Nodup, List.pairwise_map]
    refine List.pairwise_lt_range.imp_of_mem ?_
    intro first second isFirst _ before same
    have apart := startAt_lt formed.filled before (List.mem_range.mp isFirst)
    simp only [Function.comp_apply, Nat.cast_inj] at same
    omega
  · rw [starts_eq, List.map_map]
    exact List.mem_map.mpr ⟨position, List.mem_range.mpr below, rfl⟩

end Labels

/-- What becomes of a function: a body whose blocks are the LLVM blocks in order, and a graph that
shows each block it keeps under the label of the LLVM block. -/
structure Preserved (function : FunctionValue) (raw : RawFunction) (body : List Instruction) :
    Prop where
  stream : raw.stream = pure body
  whole : (Code.split body).flatMap CodeBlock.instructions = body
  count : (Code.split body).length = function.blocks.length
  mirrors : ∀ (position : Nat) (block : BlockValue) (code : CodeBlock),
    function.blocks[position]? = some block → (Code.split body)[position]? = some code →
      Mirrors function position block code
  labelled : function.blocks ≠ [] → ∀ name family base, (Opcode.classes? family).isSome →
    ∃ (graph : FlowGraph) (order : List Nat),
      (Code.build name (Code.split body) family raw.labels base).outcome = .ok graph ∧
      order.Nodup ∧ (∀ position ∈ order, position < function.blocks.length) ∧
      graph.display.addresses = (order.map fun position =>
        Code.addresses (Code.codeAt (Code.split body) position).instructions) ∧
      graph.display.labels = order.map (labelAt function.blocks)

/-- Terminators know their targets, and other instructions have none. -/
theorem exists_branching {function : FunctionValue} (formed : WellFormed function)
    {block : BlockValue} (isBlock : block ∈ function.blocks) {instruction : InstructionValue}
    (member : instruction ∈ block.instructions) :
    ∃ found, branching (starts function) instruction.opcode instruction.operands = .ok found := by
  obtain ⟨inner, last, arcs, split, quiet, names⟩ := formed.ended block isBlock
  have inside := formed.inside block isBlock instruction member
  rw [split, List.mem_append, List.mem_singleton] at member
  rcases member with isInner | rfl
  · obtain ⟨flow, _, branches⟩ := branching_inner (starts function) (quiet instruction isInner)
      instruction.operands
    exact ⟨_, branches⟩
  · obtain ⟨found, branches, _⟩ := branching_names formed.distinct names inside
    exact ⟨found, branches⟩

theorem Extracted.preserved {function : FunctionValue} (formed : WellFormed function)
    {groups : List (List Instruction)} (extracted : Extracted function groups) {raw : RawFunction}
    (stream : raw.stream = pure groups.flatten) (isLabels : raw.labels = labels function) :
    Preserved function raw groups.flatten := by
  obtain ⟨count, mirrors⟩ := extracted.mirrors formed
  obtain ⟨same, _⟩ := (extracted.structured formed).split_eq
  refine ⟨stream, ?_, count, mirrors, ?_⟩
  · rw [List.flatMap_def, same]
  · intro some' name family base hasTable
    have nonempty : Code.split groups.flatten ≠ [] := by
      rw [← List.length_pos_iff, count, List.length_pos_iff]
      exact some'
    obtain ⟨order, distinct, inside, _, built, _⟩ := Code.build_graphOf hasTable name
      (Code.split_closed groups.flatten) nonempty raw.labels base
    refine ⟨_, order, built, distinct, fun position member => count ▸ inside position member, ?_, ?_⟩
    · simp only [Code.graphOf, Code.sideTable, Code.ordered_eq inside, List.map_map]
      rfl
    · simp only [Code.graphOf, Code.sideTable, Code.ordered_eq inside, List.map_map]
      apply List.map_congr_left
      intro position member
      have below := inside position member
      have isCode := Code.getElem?_codeAt below
      rw [count] at below
      have shown := mirrors position _ _ (List.getElem?_eq_getElem below) isCode
      rw [Function.comp_apply, Code.blockLabel, shown.address, isLabels, find?_labels formed below]

/-- The block structure of an LLVM function survives: it is extracted when its operands can be read,
and the blocks of what is extracted are its own. -/
theorem rawFunction_preserved {function : FunctionValue} (formed : WellFormed function)
    (address : Int) (toolkit : Toolkit) :
    ((∀ block ∈ function.blocks, ∀ instruction ∈ block.instructions,
        ∀ value ∈ instruction.operands, Readable toolkit.demangler value) →
      ∃ raw after, (rawFunction function address toolkit).outcome = .ok (raw, after)) ∧
    ∀ raw after, (rawFunction function address toolkit).outcome = .ok (raw, after) →
      ∃ body, Preserved function raw body := by
  refine ⟨?_, ?_⟩
  · intro readable
    obtain ⟨body, after, extracts⟩ : ∃ body after, (instructionsFrom (starts function) 0
        (function.blocks.flatMap BlockValue.instructions) toolkit).outcome = .ok (body, after) := by
      refine instructionsFrom_readable 0 ?_ ?_ rfl
      · intro instruction member
        obtain ⟨block, isBlock, member⟩ := List.mem_flatMap.mp member
        exact readable block isBlock instruction member
      · intro instruction member
        obtain ⟨block, isBlock, member⟩ := List.mem_flatMap.mp member
        exact exists_branching formed isBlock member
    refine ⟨{ name := function.name, address := address, labels := labels function
              stream := pure body }, after, ?_⟩
    simp only [rawFunction, Reading.outcome_bind, extracts, Outcome.ok_bind, Reading.outcome_pure]
  · intro raw after succeeded
    simp only [rawFunction, Reading.outcome_bind] at succeeded
    obtain ⟨⟨body, later⟩, extracts, succeeded⟩ := Outcome.bind_eq_ok succeeded
    obtain ⟨rfl, _⟩ := Prod.mk.inj (Except.ok.inj succeeded)
    have related := instructionsFrom_extracts extracts
    obtain ⟨groups, rfl, count, each⟩ := exists_groups related
    have extracted : Extracted function groups := by
      refine ⟨count, ?_, flatMap_addresses related⟩
      intro position block group isBlock isGroup
      simpa using each position block group isBlock isGroup
    exact ⟨groups.flatten, extracted.preserved formed rfl rfl⟩

def blockOperand (label : String) : Value :=
  { kind := .basicBlock, name := label }

/-- A first block without a label, a switch with a case twice, and an unwinding call. -/
def switching : FunctionValue :=
  { name := "switching"
    blocks :=
      [{ text := "\n  %1 = icmp eq i32 %0, 3"
         instructions :=
          [{ opcode := "icmp", text := "  %1 = icmp eq i32 %0, 3"
             operands := [{ kind := .argument }, { kind := .constantInt, text := "i32 3" }] },
           { opcode := "br", text := "  br i1 %1, label %many, label %done"
             operands := [{ kind := .instruction, name := "1" }, blockOperand "done",
              blockOperand "many"] }] },
       { name := "many"
         instructions :=
          [{ opcode := "switch", text := "  switch i32 %0, label %done"
             operands := [{ kind := .argument }, blockOperand "done",
              { kind := .constantInt, text := "i32 -7" }, blockOperand "many",
              { kind := .constantInt, text := "i32 9" }, blockOperand "many"] }] },
       { name := "done"
         instructions := [{ opcode := "ret", text := "  ret void" }] }] }

theorem switching_formed : WellFormed switching := by
  refine ⟨?_, by decide, by decide⟩
  intro block isBlock
  simp only [switching, List.mem_cons, List.not_mem_nil, or_false] at isBlock
  rcases isBlock with rfl | rfl | rfl
  · exact ⟨[_], _, _, rfl, by decide, .branch rfl rfl⟩
  · have minusSeven : constantInt "i32 -7" = .ok (-7) := by decide
    have nine : constantInt "i32 9" = .ok 9 := by decide
    exact ⟨[], _, _, rfl, by decide, .switch
      [⟨{ kind := .constantInt, text := "i32 -7" }, blockOperand "many", -7, rfl, minusSeven⟩,
       ⟨{ kind := .constantInt, text := "i32 9" }, blockOperand "many", 9, rfl, nine⟩] rfl⟩
  · exact ⟨[], _, _, rfl, by decide, .leave (by decide)⟩

theorem readable_local (demangler : Symbol.Demangler) {value : Value}
    (isLocal : value.kind ∈ [.argument, .instruction, .basicBlock]) : Readable demangler value := by
  obtain ⟨kind, name, text⟩ := value
  simp only [List.mem_cons, List.not_mem_nil, or_false] at isLocal
  intro toolkit _
  rcases isLocal with rfl | rfl | rfl
  · exact ⟨_, rfl⟩
  · exact ⟨_, rfl⟩
  · exact ⟨_, rfl⟩

theorem readable_constant (demangler : Symbol.Demangler) {value : Value}
    (isConstant : value.kind = .constantInt) (reads : (constantInt value.text).isOk = true) :
    Readable demangler value := by
  intro toolkit _
  cases read : constantInt value.text with
  | error fault => simp [read, Except.isOk, Except.toBool] at reads
  | ok number =>
      refine ⟨({ type := .immediate, value := some (.int number), text := value.text }, toolkit), ?_⟩
      simp only [operand, isConstant, Reading.outcome_bind, Reading.outcome_except, read,
        Outcome.ok_bind, Reading.outcome_pure]

theorem rawFunction_preserved_switching :
    ∃ raw after body, (rawFunction switching 0 {}).outcome = .ok (raw, after) ∧
      Preserved switching raw body := by
  have kinds : ∀ block ∈ switching.blocks, ∀ instruction ∈ block.instructions,
      ∀ value ∈ instruction.operands, value.kind ∈ [.argument, .instruction, .basicBlock] ∨
        value.kind = .constantInt ∧ (constantInt value.text).isOk = true := by
    decide
  obtain ⟨reads, keeps⟩ := rawFunction_preserved switching_formed 0 {}
  obtain ⟨raw, after, read⟩ := reads fun block isBlock instruction isInstruction value isValue =>
    (kinds block isBlock instruction isInstruction value isValue).elim (readable_local _)
      fun constant => readable_constant _ constant.1 constant.2
  obtain ⟨body, preserved⟩ := keeps raw after read
  exact ⟨raw, after, body, read, preserved⟩

end FlowAlign.Bitcode
