import FlowAlign.Literal
import FlowAlign.Note

/-! Decoded instructions, whatever the format they come from. -/

namespace FlowAlign

inductive OperandType where
  | unknown
  | register
  | memory
  | immediate
  | floatPoint
  | code
  | symbol
  deriving DecidableEq

namespace OperandType

def all : List OperandType := [unknown, register, memory, immediate, floatPoint, code, symbol]

def name : OperandType → String
  | unknown => "unknown"
  | register => "register"
  | memory => "memory"
  | immediate => "immediate"
  | floatPoint => "float_point"
  | code => "code"
  | symbol => "symbol"

def ofName? (name : String) : Option OperandType :=
  all.find? fun type => type.name == name

def isConstant : OperandType → Bool
  | immediate => true
  | floatPoint => true
  | _ => false

end OperandType

/-- An operand. Reading its type may leave a note about how it was decoded. -/
structure Operand where
  type : OperandType
  value : Option Literal := none
  text : String
  notes : List Note := []
  deriving DecidableEq

def Operand.describe (operand : Operand) : String :=
  s!"<Op:{operand.text}>"

inductive Flow where
  | sequential
  | call
  /-- A call with a normal destination and an exceptional one. -/
  | callWithUnwind
  | jump
  | condJump
  | indirectJump
  | switch
  | ret
  | trap
  deriving DecidableEq

namespace Flow

def all : List Flow :=
  [sequential, call, callWithUnwind, jump, condJump, indirectJump, switch, ret, trap]

def name : Flow → String
  | sequential => "sequential"
  | call => "call"
  | callWithUnwind => "call_with_unwind"
  | jump => "jump"
  | condJump => "cond_jump"
  | indirectJump => "indirect_jump"
  | switch => "switch"
  | ret => "ret"
  | trap => "trap"

def ofName? (name : String) : Option Flow :=
  all.find? fun flow => flow.name == name

def isTerminator : Flow → Bool
  | sequential => false
  | call => false
  | _ => true

end Flow

/-- An instruction. `caseValues` belongs to the targets of a switch, one value for each, none for
the default. -/
structure Instruction where
  address : Int
  mnemonic : String
  text : String
  operands : List Operand := []
  flow : Flow := .sequential
  targets : List Int := []
  caseValues : List (Option Int) := []
  undecoded : Bool := false
  /-- Number of bytes, zero for instructions without an encoding. -/
  size : Int := 0
  deriving DecidableEq

def Instruction.describe (instruction : Instruction) : String :=
  s!"<Inst:{instruction.text}>"

def Instruction.renumber (offset : Nat) (instruction : Instruction) : Instruction :=
  { instruction with operands := instruction.operands.map fun operand =>
      { operand with value := operand.value.map (Literal.renumber offset) } }

def noCaseValues (targets : List Int) : List (Option Int) :=
  targets.map fun _ => none

end FlowAlign
