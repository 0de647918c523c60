import FlowAlign.Code.Order
import FlowAlign.Fault
import FlowAlign.Logged
import FlowAlign.Opcode.Class
import FlowAlign.Table

/-!
Canonical graph of a function: the blocks reachable from the entry in linear order, their
instructions reduced to tokens. Names and addresses survive in the side table only.
-/

namespace FlowAlign

namespace OperandType

def role : OperandType → Role
  | unknown => .register
  | register => .register
  | memory => .memory
  | immediate => .immediate
  | floatPoint => .immediate
  | code => .label
  | symbol => .label

end OperandType

namespace Operand

/-- The literal a token keeps: constants and the names of called functions. -/
def literal (operand : Operand) : Option Literal :=
  if operand.type = .symbol || operand.type.isConstant then operand.value else none

end Operand

namespace Code

/-- Token of an instruction; nothing for a family without an opcode table. -/
def token? (family : Family) (instruction : Instruction) : Option Token :=
  if instruction.undecoded then
    some { opcode := "opaque." ++ family.name, mnemonic := some instruction.text }
  else
    (Opcode.opcodeClass? family instruction).map fun opcode =>
      { opcode := opcode
        roles := instruction.operands.map fun operand => operand.type.role
        literals := instruction.operands.map Operand.literal }

def tokenNotes (family : Family) (instruction : Instruction) : List Note :=
  if instruction.undecoded then
    let address := Text.hex instruction.address
    [.once .warning (s!"Undecodable {family.name} instruction `{instruction.text}` at {address} " ++
      "kept as an opaque token")]
  else instruction.operands.flatMap Operand.notes

def normalize (family : Family) (instruction : Instruction) : Logged Fault Token := do
  Logged.leave (tokenNotes family instruction)
  match token? family instruction with
  | some token => return token
  | none => Logged.fail (.data .unknownKey)

/-- Edges of the block at a position of the order, by the positions of the order. -/
def canonicalEdges (blocks : List CodeBlock) (order : List Nat) (position : Nat)
    (block : CodeBlock) : List Edge :=
  Edge.sort (block.exits.filterMap fun exit =>
    (position? blocks exit.target).map fun target =>
      { source := position
        target := order.idxOf target
        kind := exit.kind
        value := exit.value })

/-- Display name of a block: its own, or its distance from the base address. -/
def blockLabel (labels : List (Int × String)) (base : Int) (block : CodeBlock) : String :=
  match Table.find? labels block.address with
  | some label => label
  | none => "+" ++ Text.hex (block.address - base)

def sideTable (labels : List (Int × String)) (base : Int) (ordered : List CodeBlock) : SideTable :=
  { labels := ordered.map (blockLabel labels base)
    texts := ordered.map fun block => block.instructions.map Instruction.text
    addresses := ordered.map fun block => block.instructions.map Instruction.address }

def canonicalBlocks (family : Family) (blocks : List CodeBlock) (order : List Nat) :
    Nat → List CodeBlock → Logged Fault (List Block)
  | _, [] => pure []
  | position, block :: rest => do
      let tokens ← block.instructions.mapM (normalize family)
      let others ← canonicalBlocks family blocks order (position + 1) rest
      return { id := position
               tokens := tokens
               edges := canonicalEdges blocks order position block } :: others

def droppedWarning (name : String) (dropped : Nat) : String :=
  s!"Dropped {dropped} unreachable block(s) in `{name}`"

def build (name : String) (blocks : List CodeBlock) (family : Family)
    (labels : List (Int × String)) (base : Int) : Logged Fault FlowGraph := do
  if blocks.isEmpty then Logged.fail (.graph (.noInstruction name))
  let order ← Logged.ofExcept ((linearize blocks).mapError Fault.order)
  let dropped := blocks.length - order.length
  let warnings := if dropped = 0 then [] else [droppedWarning name dropped]
  Logged.leave (warnings.map Note.warning)
  let ordered := order.filterMap fun position => blocks[position]?
  let canonical ← canonicalBlocks family blocks order 0 ordered
  let graph : FlowGraph :=
    { name := name
      blocks := canonical
      display := sideTable labels base ordered
      warnings := warnings }
  Logged.ofExcept (graph.check.mapError Fault.graph)
  return graph

end Code

end FlowAlign
