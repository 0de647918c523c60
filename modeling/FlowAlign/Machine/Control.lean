import FlowAlign.Instruction
import FlowAlign.Machine.Decoded
import FlowAlign.Text.Affix

/-! Where control goes after a machine instruction, by its mnemonic, groups and operands. -/

namespace FlowAlign.Machine

structure Control where
  flow : Flow
  targets : List Int := []
  deriving DecidableEq

namespace Control

def sequential : Control := { flow := .sequential }

/-- Control of x86 instructions. The mnemonic may have words in front of it, and must have one. -/
def x86 (decoded : Decoded) : Except Fault Control :=
  match (Text.words decoded.mnemonic).getLast? with
  | none => .error (.data .outOfRange)
  | some mnemonic =>
      let targets := decoded.lastImmediate
      .ok (
        if decoded.belongsTo .ret || decoded.belongsTo .interruptReturn then { flow := .ret }
        else if decoded.belongsTo .call then { flow := .call, targets := targets }
        else if decoded.belongsTo .jump then
          if mnemonic = "jmp" || mnemonic = "ljmp" then
            if targets.isEmpty then { flow := .indirectJump }
            else { flow := .jump, targets := targets }
          else { flow := .condJump, targets := targets }
        else if ["ud2", "hlt", "int3"].contains mnemonic then { flow := .trap }
        else sequential)

def arm64 (decoded : Decoded) : Control :=
  let mnemonic := decoded.mnemonic
  let targets := decoded.lastImmediate
  if ["brk", "udf", "hlt"].contains mnemonic then { flow := .trap }
  else if decoded.belongsTo .ret || ["ret", "retaa", "retab", "eret"].contains mnemonic then
    { flow := .ret }
  else if mnemonic = "bl" then { flow := .call, targets := targets }
  else if Text.startsWith mnemonic "blr" then { flow := .call }
  else if mnemonic = "b" then { flow := .jump, targets := targets }
  else if Text.startsWith mnemonic "br" then { flow := .indirectJump }
  else if Text.startsWith mnemonic "b." || ["cbz", "cbnz", "tbz", "tbnz"].contains mnemonic then
    { flow := .condJump, targets := targets }
  else sequential

def conditionEndings : List String :=
  ["eq", "ne", "hs", "cs", "lo", "cc", "mi", "pl", "vs", "vc", "hi", "ls", "ge", "lt", "gt", "le"]

def isConditional (decoded : Decoded) : Bool :=
  decoded.condition ≠ 0 && decoded.condition ≠ 15

def bareMnemonic (decoded : Decoded) : String :=
  let mnemonic := Text.removeEnding ".n" (Text.removeEnding ".w" decoded.mnemonic)
  if isConditional decoded && Text.endsWithAny conditionEndings mnemonic then
    String.ofList (mnemonic.toList.take (mnemonic.toList.length - 2))
  else mnemonic

/-- A way out of the function. Under a condition only the other side continues here. -/
def leaving (decoded : Decoded) (flow : Flow) : Control :=
  if isConditional decoded then { flow := .condJump } else { flow := flow }

def arm32 (decoded : Decoded) : Control :=
  let mnemonic := bareMnemonic decoded
  let operands := decoded.operandText
  let targets := decoded.lastImmediate
  if mnemonic = "bl" || mnemonic = "blx" then { flow := .call, targets := targets }
  else if mnemonic = "b" then
    { flow := if isConditional decoded then .condJump else .jump, targets := targets }
  else if mnemonic = "cbz" || mnemonic = "cbnz" then { flow := .condJump, targets := targets }
  else if mnemonic = "bx" then leaving decoded (if operands = "lr" then .ret else .indirectJump)
  else if ["pop", "ldm", "ldmia", "ldmfd"].contains mnemonic && Text.contains operands "pc" then
    leaving decoded .ret
  else if Text.startsWith mnemonic "ldr" && Text.startsWith operands "pc" then
    leaving decoded .indirectJump
  else if mnemonic = "mov" && Text.startsWith operands "pc" then
    leaving decoded (if Text.endsWith operands "lr" then .ret else .indirectJump)
  else if mnemonic = "tbb" || mnemonic = "tbh" then leaving decoded .indirectJump
  else if mnemonic = "udf" || mnemonic = "bkpt" then { flow := .trap }
  else sequential

/-- Control of an instruction; data do nothing. -/
def of (arch : Arch) (decoded : Decoded) : Except Fault Control :=
  if decoded.isData then .ok sequential
  else match arch with
    | .x86 => x86 decoded
    | .arm64 => .ok (arm64 decoded)
    | .arm => .ok (arm32 decoded)

end Control

end FlowAlign.Machine
