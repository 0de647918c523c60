import FlowAlign.Format
import FlowAlign.Instruction
import FlowAlign.Opcode.Tables
import FlowAlign.Text.Affix

/-!
Opcode class of an instruction. An instruction without an equivalent elsewhere keeps its mnemonic,
qualified by its family, so that different instruction sets never agree by accident.
-/

namespace FlowAlign.Opcode

def flowClass? : Flow → Option String
  | .call => some "call"
  | .callWithUnwind => some "invoke"
  | .jump => some "branch"
  | .indirectJump => some "indirect_branch"
  | .switch => some "switch"
  | .ret => some "return"
  | .trap => some "trap"
  | .sequential => none
  | .condJump => none

def classes? : Family → Option (List (String × String))
  | .x86 => some x86Classes
  | .arm64 => some armClasses
  | .arm32 => some armClasses
  | .avr => some avrClasses
  | .llvm => some llvmClasses
  | .other _ => none

def withoutWidth (mnemonic : String) : String :=
  Text.removeEnding ".n" (Text.removeEnding ".w" mnemonic)

def isConditionable (base : String) : Bool :=
  (armClasses.lookup base).isSome || Text.startsWithAny armLoadStarts base

def splitCondition (mnemonic : String) : String × Option String :=
  let plain := withoutWidth mnemonic
  if (armClasses.lookup plain).isSome then (plain, none)
  else
    let found := armConditions.find? fun (code, _) =>
      Text.endsWith plain code && isConditionable (Text.removeEnding code plain)
    match found with
    | some (code, condition) => (Text.removeEnding code plain, some condition)
    | none => (plain, none)

def branchCondition? (family : Family) (mnemonic : String) : Option String :=
  match family with
  | .x86 => if Text.startsWith mnemonic "j" then x86Conditions.lookup (Text.dropStart 1 mnemonic)
      else none
  | .arm64 =>
      if Text.startsWith mnemonic "b." then armConditions.lookup (Text.dropStart 2 mnemonic)
      else if mnemonic = "cbz" then some "eq"
      else if mnemonic = "cbnz" then some "ne"
      else none
  | .arm32 =>
      let plain := withoutWidth mnemonic
      if plain = "cbz" then some "eq"
      else if plain = "cbnz" then some "ne"
      else if Text.startsWith plain "b" then armConditions.lookup (Text.dropStart 1 plain)
      else none
  | .avr => avrBranches.lookup mnemonic
  | _ => none

def branchClass (family : Family) (mnemonic : String) : String :=
  match branchCondition? family mnemonic with
  | some condition => "cond_branch." ++ condition
  | none => if family = .llvm then "cond_branch" else family.name ++ "." ++ mnemonic

def comparisonClass? (family : Family) (mnemonic : String) : Option String :=
  if family = .llvm then
    match Text.splitFirst? '.' mnemonic with
    | some ("icmp", predicate) =>
        some ("compare." ++ (llvmPredicates.lookup predicate).getD predicate)
    | some ("fcmp", predicate) => some ("fcompare." ++ predicate)
    | _ => none
  else none

def isArm (family : Family) : Bool :=
  family = .arm64 || family = .arm32

/-- Class by the mnemonic alone, in the table of the family or by the spelling. -/
def plainClass (family : Family) (table : List (String × String)) (mnemonic : String) : String :=
  let setCondition := if family = .x86 && Text.startsWith mnemonic "set" then
      x86Conditions.lookup (Text.dropStart 3 mnemonic)
    else none
  if family = .x86 && Text.startsWith mnemonic "cmov" then "select"
  else match setCondition with
    | some condition => "setcc." ++ condition
    | none =>
        if family = .arm64 && mnemonic = "cset" then "setcc"
        else match table.lookup mnemonic with
          | some found => found
          | none =>
              if isArm family && Text.startsWithAny armLoadStarts mnemonic then "load"
              else if isArm family && Text.startsWithAny armStoreStarts mnemonic then "store"
              else family.name ++ "." ++ mnemonic

/-- A move that touches memory is a store or a load. -/
def refineMove (types : List OperandType) (found : String) : String :=
  if found = "move" then
    if types.head? = some .memory then "store"
    else if types.contains .memory then "load"
    else found
  else found

/-- Class of an instruction that continues with the next one; nothing without an opcode table. -/
def sequentialClass? (family : Family) (types : List OperandType) (mnemonic : String) :
    Option String := do
  match comparisonClass? family mnemonic with
  | some found => some found
  | none =>
      let (base, condition) := if family = .arm32 then splitCondition mnemonic
        else (mnemonic, none)
      let table ← classes? family
      let found := refineMove types (plainClass family table base)
      match condition with
      | some code => some (found ++ "." ++ code)
      | none => some found

/-- Opcode class of an instruction, nothing for a family without an opcode table. -/
def opcodeClass? (family : Family) (instruction : Instruction) : Option String :=
  let mnemonic := Text.lower instruction.mnemonic
  match flowClass? instruction.flow with
  | some found => some found
  | none =>
      if instruction.flow = .condJump then some (branchClass family mnemonic)
      else sequentialClass? family (instruction.operands.map Operand.type) mnemonic

end FlowAlign.Opcode
