import FlowAlign.Bitcode.Function
import FlowAlign.Code.Block
import FlowAlign.Proofs.Code.Flow
import FlowAlign.Proofs.Position

/-!
Terminators of LLVM blocks. What a terminator names is said here by the labels of its operands, one
rule for each layout of operands, and every terminator branches to what it names.
-/

namespace FlowAlign

theorem Table.find?_of_mem {κ β : Type} [BEq κ] [LawfulBEq κ] {entries : List (κ × β)} {key : κ}
    {value : β} (distinct : (entries.map Prod.fst).Nodup) (member : (key, value) ∈ entries) :
    Table.find? entries key = some value := by
  cases found : Table.find? entries key with
  | none =>
      have absent := List.lookup_eq_none_iff.mp found (key, value) (List.mem_reverse.mpr member)
      simp at absent
  | some other =>
      have same := List.inj_on_of_nodup_map distinct (Table.mem_of_find? found) member rfl
      rw [(Prod.mk.inj same).2]

/-- Where keys differ, collecting a table keeps its entries. -/
theorem Table.find?_collect {κ β : Type} [DecidableEq κ] {entries : List (κ × β)} {key : κ}
    {value : β} (distinct : (entries.map Prod.fst).Nodup) (member : (key, value) ∈ entries) :
    Table.find? (Table.collect entries) key = some value := by
  have found := Table.find?_of_mem distinct member
  apply Table.find?_of_mem
  · have listed : (Table.collect entries).map Prod.fst =
        (Table.keys entries).filterMap fun key => (Table.find? entries key).map fun _ => key := by
      rw [Table.collect, List.map_filterMap]
      simp only [Option.map_map]
      rfl
    rw [listed]
    refine List.Nodup.filterMap ?_ (nodup_eraseDups _)
    intro first second other isFirst isSecond
    obtain ⟨_, _, rfl⟩ := Option.map_eq_some_iff.mp isFirst
    obtain ⟨_, _, rfl⟩ := Option.map_eq_some_iff.mp isSecond
    rfl
  · have isKey : key ∈ Table.keys entries :=
      List.mem_eraseDups.mpr (List.mem_map.mpr ⟨_, member, rfl⟩)
    exact List.mem_filterMap.mpr ⟨key, isKey, by rw [found]; rfl⟩

namespace Bitcode

/-- Label of the block at a position: its own one, or else the position. -/
def labelAt (blocks : List BlockValue) (position : Nat) : String :=
  labelOr (blocks[position]?.bind fun block => blockLabel? block.name block.text)
    (toString position)

def blockLabels (blocks : List BlockValue) : List String :=
  (List.range blocks.length).map (labelAt blocks)

/-- Number of the first instruction of the block at a position. -/
def startAt (blocks : List BlockValue) (position : Nat) : Nat :=
  ((blocks.take position).flatMap BlockValue.instructions).length

/-- Label that an operand carries. Only the first block is without one. -/
def Value.label (value : Value) : String :=
  labelOr (blockLabel? value.name value.text) "0"

def blockOperands (values : List Value) : List Value :=
  values.filter fun value => value.kind = .basicBlock

/-- A way out of a block, by the label of the block that it leads to. -/
structure Arc where
  label : String
  kind : EdgeKind
  value : Option Int := none

/-- Number of the first instruction of the block with a label. -/
def startOf (blocks : List BlockValue) (label : String) : Int :=
  startAt blocks ((blockLabels blocks).idxOf label)

def Arc.exit (blocks : List BlockValue) (arc : Arc) : Exit :=
  { target := startOf blocks arc.label
    kind := arc.kind
    value := arc.value }

/-- A case of a switch: two operands, the second of which is a block. -/
structure Case where
  value : Value
  target : Value
  number : Int
  isBlock : target.kind = .basicBlock
  reads : constantInt value.text = .ok number

def terminators : List String :=
  ["br", "switch", "indirectbr", "invoke", "ret", "resume", "unreachable"] ++ generalTerminators

def indirectArc (value : Value) : Arc :=
  { label := value.label, kind := .indirect }

/-- Terminators by the layout of their operands, with the ways out that they name. -/
inductive Names : InstructionValue → List Arc → Prop
  | jump {text target} : target.kind = .basicBlock →
      Names { opcode := "br", text := text, operands := [target] }
        [{ label := target.label, kind := .unconditional }]
  | branch {text condition otherwise target} : otherwise.kind = .basicBlock →
      target.kind = .basicBlock →
      Names { opcode := "br", text := text, operands := [condition, otherwise, target] }
        [{ label := target.label, kind := .branchTrue },
         { label := otherwise.label, kind := .branchFalse }]
  | switch {text condition default} (cases : List Case) : default.kind = .basicBlock →
      Names { opcode := "switch", text := text
              operands := condition :: default ::
                cases.flatMap fun choice => [choice.value, choice.target] }
        ({ label := default.label, kind := .switchCase } ::
          cases.map fun choice =>
            { label := choice.target.label, kind := .switchCase, value := some choice.number })
  | indirect {text operands} : blockOperands operands ≠ [] →
      Names { opcode := "indirectbr", text := text, operands := operands }
        ((blockOperands operands).map indirectArc)
  | invoke {text operands normal unwind} : blockOperands operands = [normal, unwind] →
      Names { opcode := "invoke", text := text, operands := operands }
        [{ label := normal.label, kind := .unconditional }, indirectArc unwind]
  | leave {opcode text operands} : opcode ∈ ["ret", "resume", "unreachable"] →
      Names { opcode := opcode, text := text, operands := operands } []
  | general {opcode text operands} : opcode ∈ generalTerminators →
      Names { opcode := opcode, text := text, operands := operands }
        ((blockOperands operands).map indirectArc)

/-- Ways out lead to blocks among the operands. -/
theorem Names.operand {instruction : InstructionValue} {arcs : List Arc}
    (names : Names instruction arcs) {arc : Arc} (member : arc ∈ arcs) :
    ∃ value ∈ instruction.operands, value.kind = .basicBlock ∧ arc.label = value.label := by
  have listed : ∀ {operands : List Value} {value : Value}, value ∈ blockOperands operands →
      value ∈ operands ∧ value.kind = .basicBlock := by
    intro operands value member
    obtain ⟨isOperand, isBlock⟩ := List.mem_filter.mp member
    exact ⟨isOperand, of_decide_eq_true isBlock⟩
  have indirect : ∀ {operands : List Value}, arc ∈ (blockOperands operands).map indirectArc →
      ∃ value ∈ operands, value.kind = .basicBlock ∧ arc.label = value.label := by
    intro operands member
    obtain ⟨value, isBlock, rfl⟩ := List.mem_map.mp member
    exact ⟨value, (listed isBlock).1, (listed isBlock).2, rfl⟩
  cases names with
  | @jump text target isBlock =>
      rw [List.mem_singleton.mp member]
      exact ⟨target, by simp, isBlock, rfl⟩
  | @branch text condition otherwise target isBlock isBlock' =>
      rcases List.mem_pair.mp member with rfl | rfl
      · exact ⟨target, by simp, isBlock', rfl⟩
      · exact ⟨otherwise, by simp, isBlock, rfl⟩
  | @switch text condition default cases isBlock =>
      rcases List.mem_cons.mp member with rfl | member
      · exact ⟨default, by simp, isBlock, rfl⟩
      · obtain ⟨choice, isCase, rfl⟩ := List.mem_map.mp member
        refine ⟨choice.target, ?_, choice.isBlock, rfl⟩
        exact List.mem_cons_of_mem _ (List.mem_cons_of_mem _
          (List.mem_flatMap.mpr ⟨choice, isCase, by simp⟩))
  | indirect _ => exact indirect member
  | @invoke text operands normal unwind pair =>
      rcases List.mem_pair.mp member with rfl | rfl
      · obtain ⟨isOperand, isBlock⟩ := listed (by rw [pair]; simp : normal ∈ blockOperands operands)
        exact ⟨normal, isOperand, isBlock, rfl⟩
      · obtain ⟨isOperand, isBlock⟩ := listed (by rw [pair]; simp : unwind ∈ blockOperands operands)
        exact ⟨unwind, isOperand, isBlock, rfl⟩
  | leave _ => cases member
  | general _ => exact indirect member

section Starts

theorem startAt_succ (block : BlockValue) (rest : List BlockValue) (position : Nat) :
    startAt (block :: rest) (position + 1) =
      block.instructions.length + startAt rest position := by
  simp [startAt]

theorem startsFrom_getElem? : ∀ (blocks : List BlockValue) (position index place : Nat),
    (startsFrom position index blocks)[place]? = blocks[place]?.map fun block =>
      (labelOr (blockLabel? block.name block.text) (toString (position + place)),
        ((index + startAt blocks place : Nat) : Int)) := by
  intro blocks
  induction blocks with
  | nil =>
      intro position index place
      simp [startsFrom]
  | cons block rest ih =>
      intro position index place
      cases place with
      | zero => simp [startsFrom, startAt]
      | succ place =>
          rw [startsFrom, List.getElem?_cons_succ, ih, startAt_succ, List.getElem?_cons_succ]
          have numbers : position + 1 + place = position + (place + 1) := by omega
          have places : index + block.instructions.length + startAt rest place =
              index + (block.instructions.length + startAt rest place) := by omega
          rw [numbers, places]

theorem labelAt_of_getElem? {blocks : List BlockValue} {position : Nat} {block : BlockValue}
    (isBlock : blocks[position]? = some block) :
    labelAt blocks position =
      labelOr (blockLabel? block.name block.text) (toString position) := by
  rw [labelAt, isBlock]
  rfl

/-- Blocks are entered under their labels, with the numbers of their first instructions. -/
theorem starts_eq (function : FunctionValue) :
    starts function = (List.range function.blocks.length).map fun position =>
      (labelAt function.blocks position, (startAt function.blocks position : Int)) := by
  apply List.ext_getElem?
  intro position
  rw [starts, startsFrom_getElem?, List.getElem?_map]
  by_cases below : position < function.blocks.length
  · have isBlock := List.getElem?_eq_getElem below
    rw [List.getElem?_range below, Option.map_some, labelAt_of_getElem? isBlock, isBlock]
    simp
  · have beyond : function.blocks.length ≤ position := by omega
    rw [List.getElem?_eq_none beyond, List.getElem?_eq_none (by simpa using beyond)]
    rfl

theorem getElem?_blockLabels {blocks : List BlockValue} {position : Nat} {label : String}
    (found : (blockLabels blocks)[position]? = some label) :
    position < blocks.length ∧ labelAt blocks position = label := by
  have below := (List.getElem?_eq_some_iff.mp found).1
  rw [blockLabels, List.length_map, List.length_range] at below
  rw [blockLabels, List.getElem?_map, List.getElem?_range below] at found
  exact ⟨below, Option.some.inj found⟩

variable {function : FunctionValue} (distinct : (blockLabels function.blocks).Nodup)

include distinct

theorem targetOf_eq {value : Value} (inside : value.label ∈ blockLabels function.blocks) :
    targetOf (starts function) value = .ok (startOf function.blocks value.label) := by
  have found := List.getElem?_idxOf inside
  obtain ⟨below, isLabel⟩ := getElem?_blockLabels found
  have keys : ((starts function).map Prod.fst).Nodup := by
    rw [starts_eq, List.map_map]
    exact distinct
  have member : (value.label, startOf function.blocks value.label) ∈ starts function := by
    rw [starts_eq]
    exact List.mem_map.mpr ⟨_, List.mem_range.mpr below, by rw [isLabel, startOf]⟩
  have entry := Table.find?_of_mem keys member
  rw [targetOf, ← Value.label, entry]

end Starts

section Branching

/-- A branching that ends a block and leads where arcs lead. -/
structure Follows (blocks : List BlockValue) (arcs : List Arc) (branching : Branching) : Prop where
  terminates : branching.flow.isTerminator = true
  targets : branching.targets = arcs.map fun arc => startOf blocks arc.label
  resolved : branching.flow = .indirectJump → arcs ≠ []
  exits : ∀ last : Instruction, last.flow = branching.flow → last.targets = branching.targets →
    last.caseValues = branching.caseValues → ∀ next,
      Code.namedExits last next = arcs.map (Arc.exit blocks)

theorem follows_indirect (blocks : List BlockValue) {values : List Value} (some' : values ≠ []) :
    Follows blocks (values.map indirectArc)
      (.towards .indirectJump (values.map fun value => startOf blocks value.label)) := by
  refine ⟨rfl, ?_, ?_, ?_⟩
  · rw [Branching.towards, List.map_map]
    rfl
  · intro _ none'
    exact some' (List.map_eq_nil_iff.mp none')
  · intro last flow targets _ next
    simp only [Code.namedExits, flow, targets, Branching.towards, List.map_map]
    rfl

theorem follows_leave (blocks : List BlockValue) {flow : Flow}
    (leaves : flow = .ret ∨ flow = .trap) : Follows blocks [] (.towards flow []) := by
  rcases leaves with rfl | rfl
  · refine ⟨rfl, rfl, ?_, ?_⟩
    · intro indirect
      cases indirect
    · intro last flow _ _ next
      simp [Code.namedExits, flow, Branching.towards]
  · refine ⟨rfl, rfl, ?_, ?_⟩
    · intro indirect
      cases indirect
    · intro last flow _ _ next
      simp [Code.namedExits, flow, Branching.towards]

theorem targetAt_eq (starts : Starts) {values : List Value} {position : Nat} {value : Value}
    (found : values[position]? = some value) :
    targetAt starts values position = targetOf starts value := by
  have inside := (List.getElem?_eq_some_iff.mp found).1
  rw [targetAt, Position.pick_of_lt inside value, List.getD_eq_getElem?_getD, found]
  rfl

/-- Other instructions go on with the next one. -/
theorem branching_inner (starts : Starts) {opcode : String} (inner : opcode ∉ terminators)
    (values : List Value) : ∃ flow : Flow, flow.isTerminator = false ∧
      branching starts opcode values = .ok (.towards flow []) := by
  simp only [terminators, generalTerminators, List.mem_append, List.mem_cons, List.not_mem_nil,
    or_false, not_or] at inner
  by_cases calls : opcode = "call"
  · exact ⟨.call, rfl, by simp [branching, calls]⟩
  · exact ⟨.sequential, rfl, by simp [branching, generalTerminators, inner, calls]⟩

variable {function : FunctionValue} (distinct : (blockLabels function.blocks).Nodup)

include distinct

theorem mapM_targetOf {values : List Value}
    (inside : ∀ value ∈ values, value.label ∈ blockLabels function.blocks) :
    values.mapM (targetOf (starts function)) =
      .ok (values.map fun value => startOf function.blocks value.label) :=
  Outcome.mapM_ok fun value member => targetOf_eq distinct (inside value member)

theorem switchCases_eq (cases : List Case)
    (inside : ∀ choice ∈ cases, choice.target.label ∈ blockLabels function.blocks) :
    switchCases (starts function) (cases.flatMap fun choice => [choice.value, choice.target]) =
      .ok (cases.map fun choice =>
        (startOf function.blocks choice.target.label, some choice.number)) := by
  induction cases with
  | nil => rfl
  | cons choice rest ih =>
      have target := targetOf_eq distinct (inside choice List.mem_cons_self)
      have later := ih fun other member => inside other (List.mem_cons_of_mem _ member)
      simp only [List.flatMap_cons, List.cons_append, List.nil_append, switchCases, target,
        choice.reads, later, Outcome.ok_bind, List.map_cons]
      rfl

theorem branching_jump {target : Value} (inside : target.label ∈ blockLabels function.blocks) :
    ∃ found, branching (starts function) "br" [target] = .ok found ∧
      Follows function.blocks [{ label := target.label, kind := .unconditional }] found := by
  have first := targetOf_eq distinct inside
  refine ⟨.towards .jump [_], ?_, rfl, rfl, nofun, ?_⟩
  · simp only [branching, targetAt_eq (starts function) (List.getElem?_cons_zero), first]
    rfl
  · intro last flow targets _ next
    simp only [Code.namedExits, flow, targets, Branching.towards]
    rfl

theorem branching_branch (condition : Value) {otherwise target : Value}
    (inside : otherwise.label ∈ blockLabels function.blocks)
    (inside' : target.label ∈ blockLabels function.blocks) :
    ∃ found, branching (starts function) "br" [condition, otherwise, target] = .ok found ∧
      Follows function.blocks [{ label := target.label, kind := .branchTrue },
        { label := otherwise.label, kind := .branchFalse }] found := by
  have second := targetOf_eq distinct inside
  have third := targetOf_eq distinct inside'
  have atTwo := targetAt_eq (starts function)
    (rfl : [condition, otherwise, target][2]? = some target)
  have atOne := targetAt_eq (starts function)
    (rfl : [condition, otherwise, target][1]? = some otherwise)
  refine ⟨.towards .condJump [_, _], ?_, rfl, rfl, nofun, ?_⟩
  · simp only [branching, atTwo, atOne, second, third]
    rfl
  · intro last flow targets _ next
    simp only [Code.namedExits, flow, targets, Branching.towards]
    rfl

theorem branching_switch (condition : Value) {default : Value} {cases : List Case}
    (inside : default.label ∈ blockLabels function.blocks)
    (inside' : ∀ choice ∈ cases, choice.target.label ∈ blockLabels function.blocks) :
    ∃ found, branching (starts function) "switch" (condition :: default ::
        cases.flatMap fun choice => [choice.value, choice.target]) = .ok found ∧
      Follows function.blocks ({ label := default.label, kind := .switchCase } ::
        cases.map fun choice => { label := choice.target.label, kind := .switchCase
                                  value := some choice.number }) found := by
  have first := targetOf_eq distinct inside
  have others := switchCases_eq distinct cases inside'
  have atOne := targetAt_eq (starts function) (rfl : (condition :: default ::
    cases.flatMap fun choice => [choice.value, choice.target])[1]? = some default)
  refine ⟨{ flow := .switch
            targets := startOf function.blocks default.label ::
              cases.map fun choice => startOf function.blocks choice.target.label
            caseValues := none :: cases.map fun choice => some choice.number }, ?_, rfl, ?_, nofun, ?_⟩
  · simp [branching, atOne, first, others]
  · rw [List.map_cons, List.map_map]
    rfl
  · intro last flow targets values next
    simp only [Code.namedExits, flow, targets, values, List.zip_cons_cons, List.map_cons,
      List.map_map, List.zip_map']
    rfl

theorem branching_invoke {values : List Value} {normal unwind : Value}
    (pair : blockOperands values = [normal, unwind])
    (inside : ∀ value ∈ blockOperands values, value.label ∈ blockLabels function.blocks) :
    ∃ found, branching (starts function) "invoke" values = .ok found ∧
      Follows function.blocks
        [{ label := normal.label, kind := .unconditional }, indirectArc unwind] found := by
  have targets := mapM_targetOf distinct inside
  rw [pair] at targets
  rw [blockOperands] at pair
  refine ⟨.towards .callWithUnwind [_, _], ?_, rfl, rfl, nofun, ?_⟩
  · simp only [branching, pair, targets]
    rfl
  · intro last flow targets _ next
    simp only [Code.namedExits, flow, targets, Branching.towards]
    rfl

omit distinct in
theorem branching_leave (starts : Starts) {opcode : String}
    (leaves : opcode ∈ ["ret", "resume", "unreachable"]) (values : List Value)
    (blocks : List BlockValue) :
    ∃ found, branching starts opcode values = .ok found ∧ Follows blocks [] found := by
  simp only [List.mem_cons, List.not_mem_nil, or_false] at leaves
  rcases leaves with rfl | rfl | rfl
  · exact ⟨_, rfl, follows_leave blocks (Or.inl rfl)⟩
  · exact ⟨_, rfl, follows_leave blocks (Or.inl rfl)⟩
  · exact ⟨_, rfl, follows_leave blocks (Or.inr rfl)⟩

theorem branching_indirect {values : List Value} (some' : blockOperands values ≠ [])
    (inside : ∀ value ∈ blockOperands values, value.label ∈ blockLabels function.blocks) :
    ∃ found, branching (starts function) "indirectbr" values = .ok found ∧
      Follows function.blocks ((blockOperands values).map indirectArc) found := by
  have targets := mapM_targetOf distinct inside
  refine ⟨_, ?_, follows_indirect function.blocks some'⟩
  rw [blockOperands] at targets ⊢
  simp only [branching, targets]
  rfl

/-- A terminator without a rule of its own leads to all its blocks, and leaves when it has none. -/
theorem branching_general {opcode : String} (isGeneral : opcode ∈ generalTerminators)
    {values : List Value}
    (inside : ∀ value ∈ blockOperands values, value.label ∈ blockLabels function.blocks) :
    ∃ found, branching (starts function) opcode values = .ok found ∧
      Follows function.blocks ((blockOperands values).map indirectArc) found := by
  have targets := mapM_targetOf distinct inside
  have other : opcode ≠ "br" ∧ opcode ≠ "switch" ∧ opcode ≠ "indirectbr" ∧ opcode ≠ "invoke" ∧
      opcode ≠ "ret" ∧ opcode ≠ "resume" ∧ opcode ≠ "unreachable" ∧ opcode ≠ "call" := by
    revert opcode
    decide
  obtain ⟨noBranch, noSwitch, noIndirect, noInvoke, noReturn, noResume, noTrap, noCall⟩ := other
  by_cases none' : blockOperands values = []
  · refine ⟨.towards .ret [], ?_, ?_⟩
    · rw [blockOperands] at none'
      simp [branching, noBranch, noSwitch, noIndirect, noInvoke, noReturn, noResume, noTrap, noCall,
        isGeneral, none']
    · rw [none']
      exact follows_leave function.blocks (Or.inl rfl)
  · refine ⟨_, ?_, follows_indirect function.blocks none'⟩
    rw [blockOperands] at none' targets ⊢
    simp [branching, noBranch, noSwitch, noIndirect, noInvoke, noReturn, noResume, noTrap, noCall,
      isGeneral, targets, none']

/-- A terminator branches to what it names. -/
theorem branching_names {instruction : InstructionValue} {arcs : List Arc}
    (names : Names instruction arcs)
    (inside : ∀ value ∈ instruction.operands, value.kind = .basicBlock →
      value.label ∈ blockLabels function.blocks) :
    ∃ found, branching (starts function) instruction.opcode instruction.operands = .ok found ∧
      Follows function.blocks arcs found := by
  have listed : ∀ value ∈ blockOperands instruction.operands,
      value.label ∈ blockLabels function.blocks := by
    intro value member
    obtain ⟨isOperand, isBlock⟩ := List.mem_filter.mp member
    exact inside value isOperand (of_decide_eq_true isBlock)
  cases names with
  | jump isBlock => exact branching_jump distinct (inside _ (by simp) isBlock)
  | branch isBlock isBlock' =>
      exact branching_branch distinct _ (inside _ (by simp) isBlock) (inside _ (by simp) isBlock')
  | switch cases isBlock =>
      refine branching_switch distinct _ (inside _ (by simp) isBlock) ?_
      intro choice member
      refine inside choice.target ?_ choice.isBlock
      exact List.mem_cons_of_mem _ (List.mem_cons_of_mem _
        (List.mem_flatMap.mpr ⟨choice, member, by simp⟩))
  | indirect some' => exact branching_indirect distinct some' listed
  | invoke pair => exact branching_invoke distinct pair listed
  | leave leaves => exact branching_leave _ leaves _ _
  | general isGeneral => exact branching_general distinct isGeneral listed

end Branching

end Bitcode

end FlowAlign
