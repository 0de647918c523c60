import FlowAlign.Fault
import FlowAlign.Image.Bytes
import FlowAlign.Literal

/-!
Machine instructions as a decoder reports them. Decoding bytes is left to the decoder; its answers
are looked up by address, bytes and mode.
-/

namespace FlowAlign.Machine

inductive Arch where
  | arm
  | arm64
  | x86
  deriving DecidableEq

namespace Arch

def code : Arch → Int
  | arm => 0
  | arm64 => 1
  | x86 => 3

def ofCode? (code : Int) : Option Arch :=
  [arm, arm64, x86].find? fun arch => arch.code = code

def ofFormat : Format → Except Fault Arch
  | .x86 => .ok .x86
  | .x64 => .ok .x86
  | .arm32 => .ok .arm
  | .arm64 => .ok .arm64
  | format => .error (.request (.noDecoder format))

end Arch

inductive Payload where
  | number (value : Int)
  | memory (base index scale displacement : Int)
  | float (value : Option Literal)
  deriving DecidableEq

structure RawOperand where
  kind : Int
  payload : Payload
  deriving DecidableEq

namespace RawOperand

def registerKind : Int := 1

def immediateKind : Int := 2

def memoryKind : Int := 3

def number? (operand : RawOperand) : Option Int :=
  match operand.payload with
  | .number value => some value
  | _ => none

def isRegister (operand : RawOperand) : Bool := operand.kind = registerKind

def isImmediate (operand : RawOperand) : Bool := operand.kind = immediateKind

def isMemory (operand : RawOperand) : Bool := operand.kind = memoryKind

def literal? (operand : RawOperand) : Option Literal :=
  match operand.payload with
  | .number value => some (.int value)
  | .memory _ _ _ _ => none
  | .float value => value

end RawOperand

inductive Group where
  | jump
  | call
  | ret
  | interruptReturn
  deriving DecidableEq

def Group.ofCode? (code : Int) : Option Group :=
  [(1, jump), (2, call), (3, ret), (5, interruptReturn)].lookup code

structure Decoded where
  address : Int
  isData : Bool := false
  size : Int := 4
  mnemonic : String
  operandText : String := ""
  operands : List RawOperand := []
  groups : List Group := []
  condition : Int := 0
  deriving DecidableEq

namespace Decoded

def immediates (decoded : Decoded) : List Int :=
  (decoded.operands.filter RawOperand.isImmediate).filterMap RawOperand.number?

def lastImmediate (decoded : Decoded) : List Int :=
  decoded.immediates.getLast?.toList

def belongsTo (decoded : Decoded) (group : Group) : Bool :=
  decoded.groups.contains group

def text (decoded : Decoded) : String :=
  Text.trim (decoded.mnemonic ++ " " ++ decoded.operandText)

end Decoded

structure Answer where
  address : Int := 0
  content : Bytes := []
  thumb : Bool := false
  instructions : List Decoded

/-- Answers of a decoder; bytes without an answer decode to nothing. -/
abbrev Decoder := List Answer

/-- Instructions of bytes at an address. Thumb code is a mode of 32-bit ARM processors only. -/
def decode (decoder : Decoder) (arch : Arch) (thumb : Bool) (content : Bytes) (address : Int) :
    List Decoded :=
  let mode := thumb && arch = .arm
  match decoder.find? fun answer =>
      answer.address = address && answer.content = content && answer.thumb = mode with
  | some answer => answer.instructions
  | none => []

end FlowAlign.Machine
