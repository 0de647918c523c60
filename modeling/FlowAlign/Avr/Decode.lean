import FlowAlign.Avr.Encoding
import FlowAlign.Image.Bytes
import FlowAlign.Text.Blank

/-!
AVR machine code as a stream of instructions. Words that mean nothing become data of one word, so
the instructions tile the code without a gap.
-/

namespace FlowAlign.Avr

/-- Words of machine code, the low byte first. An odd byte at the end is left out. -/
def words : Bytes → List Nat
  | low :: high :: rest => (low.toNat + 256 * high.toNat) :: words rest
  | _ => []

def isTwoWords (word : Nat) : Bool :=
  word &&& 0xfe0f = 0x9000 || word &&& 0xfe0f = 0x9200 || word &&& 0xfe0c = 0x940c

def readLong (word extra : Nat) : Reading :=
  if word &&& 0xfe0f = 0x9000 then
    { mnemonic := "lds", operands := transfer false word (dataAddress extra) }
  else if word &&& 0xfe0f = 0x9200 then
    { mnemonic := "sts", operands := transfer true word (dataAddress extra) }
  else
    let target := 2 * (0x20000 * field word 4 5 + 0x10000 * field word 0 1 + extra)
    if field word 1 1 = 1 then transferTo "call" .call target else transferTo "jmp" .jump target

/-- Meaning of a word in front of another one, if there is one. -/
def readWord (word : Nat) (extra : Option Nat) (address : Int) : Option Reading :=
  if isTwoWords word then extra.map (readLong word) else readShort word address

def sizeOf (word : Nat) : Nat :=
  if isTwoWords word then 4 else 2

def skips : List String := ["cpse", "sbic", "sbis", "sbrc", "sbrs"]

def textOf (mnemonic : String) (operands : List Operand) : String :=
  Text.trim (mnemonic ++ " " ++ ", ".intercalate (operands.map Operand.text))

def instruction (address : Int) (size : Nat) (reading : Reading) : Instruction :=
  { address := address
    mnemonic := reading.mnemonic
    text := textOf reading.mnemonic reading.operands
    operands := reading.operands
    flow := reading.flow
    targets := reading.targets
    caseValues := noCaseValues reading.targets
    size := size }

/-- Lets a skipping instruction branch over the instruction behind it, whose first word is given. -/
def withSkip (address : Int) (size : Nat) (following : Option Nat) (reading : Reading) : Reading :=
  if skips.contains reading.mnemonic then
    let skipped := match following with
      | some word => sizeOf word
      | none => 0
    { reading with flow := .condJump, targets := [address + size + skipped] }
  else reading

def dataWord (address : Int) (word : Nat) : Instruction :=
  { instruction address 2 { mnemonic := ".word", operands := [immediate word] } with
    undecoded := true }

def decodeWords (address : Int) : List Nat → List Instruction
  | [] => []
  | word :: rest =>
      match readWord word rest.head? address with
      | none => dataWord address word :: decodeWords (address + 2) rest
      | some reading =>
          let size := sizeOf word
          let after := rest.drop (size / 2 - 1)
          instruction address size (withSkip address size after.head? reading) ::
            decodeWords (address + size) after
  termination_by words => words.length
  decreasing_by
    · simp
    · simp only [List.length_drop, List.length_cons]
      omega

def decode (data : Bytes) (address : Int) : List Instruction :=
  decodeWords address (words data)

def isCallTarget (instruction : Instruction) (operand : Operand) : Bool :=
  operand.type = .code && instruction.flow = .call

/-- Names the called function: its location becomes a symbol. An empty name changes nothing. -/
def withCallee (callee : String) (instruction : Instruction) : Instruction :=
  if callee.isEmpty then instruction
  else
    let operands := instruction.operands.map fun operand =>
      if isCallTarget instruction operand then
        { type := .symbol, value := some (.text callee), text := callee }
      else operand
    { instruction with operands := operands, text := textOf instruction.mnemonic operands }

end FlowAlign.Avr
