import FlowAlign.Image.Memory
import FlowAlign.Logged
import FlowAlign.Machine.Control

/-!
Operands of machine instructions. A constant is taken for a code location when it is the target of a
jump or call, when a relocation patches it, or when it points into the mapped image.
-/

namespace FlowAlign.Machine

namespace Arch

def operandType? (arch : Arch) (kind : Int) : Option OperandType :=
  let shared : List (Int × OperandType) :=
    [(0, .unknown), (1, .register), (2, .immediate), (3, .memory)]
  let own : List (Int × OperandType) := match arch with
    | .arm => [(4, .floatPoint), (64, .immediate), (65, .immediate), (66, .immediate),
        (67, .register)]
    | .arm64 => [(4, .floatPoint), (64, .immediate), (65, .register), (66, .register),
        (67, .register), (68, .immediate), (69, .register), (70, .immediate), (71, .immediate),
        (72, .register)]
    | .x86 => []
  (shared ++ own).lookup kind

def kindNotes (arch : Arch) (kind : Int) : List Note :=
  match arch.operandType? kind with
  | some _ => []
  | none => [.once .warning s!"Unrecognized capstone operand {kind} for arch {arch.code}"]

end Arch

/-- Type of the operands with a kind on the processors with a code. -/
def operandTypeOf (code kind : Int) : Logged Fault OperandType :=
  match Arch.ofCode? code with
  | none => Logged.fail (.request (.unknownArchitecture code))
  | some arch => do
      Logged.leave (arch.kindNotes kind)
      return (arch.operandType? kind).getD .unknown

structure Context where
  callee : Option String := none
  relocated : List Int := []
  memory : Option MemoryMap := none

/-- Whether a relocation patches the constant of an x86 instruction. The constant comes last, behind
a displacement if there is one. -/
def isPatchedX86 (relocated : List Int) (decoded : Decoded) : Bool :=
  relocated.contains (decoded.size - 4) ||
    !decoded.operands.any RawOperand.isMemory && relocated.contains (decoded.size - 8)

def isDataAddress (arch : Arch) (context : Context) (decoded : Decoded) (operand : RawOperand) :
    Bool :=
  if !context.relocated.isEmpty then
    arch ≠ .x86 || isPatchedX86 context.relocated decoded
  else context.memory.any fun memory => operand.number?.any memory.isAddress

def instructionPointer : Int := 41

def isRelativeAddress (decoded : Decoded) (operand : RawOperand) : Bool :=
  match operand.payload with
  | .memory base _ _ _ => decoded.mnemonic = "lea" && base = instructionPointer
  | _ => false

def isLocation (arch : Arch) (context : Context) (flow : Flow) (decoded : Decoded)
    (operand : RawOperand) : Bool :=
  if operand.isMemory && arch = .x86 then isRelativeAddress decoded operand
  else operand.isImmediate &&
    (flow = .call || flow = .jump || flow = .condJump ||
      ["adr", "adrp"].contains decoded.mnemonic || isDataAddress arch context decoded operand)

def operandType (arch : Arch) (context : Context) (flow : Flow) (decoded : Decoded)
    (operand : RawOperand) : OperandType :=
  if isLocation arch context flow decoded operand then
    if flow = .call && context.callee.any fun name => !name.isEmpty then .symbol else .code
  else (arch.operandType? operand.kind).getD .unknown

/-- Value of an operand of a type: the called function or a constant. -/
def operandValue (context : Context) (operand : RawOperand) : OperandType → Option Literal
  | .symbol => context.callee.map Literal.text
  | .immediate => operand.literal?
  | .floatPoint => operand.literal?
  | _ => none

def operandText (decoded : Decoded) (position : Nat) : String :=
  Text.trim ((Text.splitAll ',' decoded.operandText).getD position "")

def operand (arch : Arch) (context : Context) (flow : Flow) (decoded : Decoded) (position : Nat)
    (raw : RawOperand) : Operand :=
  let type := operandType arch context flow decoded raw
  { type := type
    value := operandValue context raw type
    text := operandText decoded position
    notes := if isLocation arch context flow decoded raw then [] else arch.kindNotes raw.kind }

def instruction (arch : Arch) (context : Context) (control : Control) (decoded : Decoded) :
    Instruction :=
  { address := decoded.address
    mnemonic := decoded.mnemonic
    text := decoded.text
    operands := if decoded.isData then []
      else decoded.operands.zipIdx.map fun (raw, position) =>
        operand arch context control.flow decoded position raw
    flow := control.flow
    targets := control.targets
    caseValues := noCaseValues control.targets
    undecoded := decoded.isData
    size := decoded.size }

end FlowAlign.Machine
