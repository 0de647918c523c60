import FlowAlign.Bitcode.Label
import FlowAlign.Program
import FlowAlign.Text.Numeral
import FlowAlign.Text.Word
import FlowAlign.Toolkit

/-!
Functions of LLVM modules as streams of instructions. Instructions are numbered through the
function, and a block is known by the number of its first instruction.
-/

namespace FlowAlign.Bitcode

def lastWord (text : String) : Except Fault String :=
  match (Text.words text).getLast? with
  | some word => .ok word
  | none => .error (.data .outOfRange)

def constantInt (text : String) : Except Fault Int := do
  let word ← lastWord text
  if word = "true" then return 1
  else if word = "false" then return 0
  else match Text.readInt? word with
    | some value => return value
    | none => throw (.data .unreadable)

def bitsOfHex (digits : String) : Except Fault UInt64 :=
  match Text.unhex? digits.toList with
  | some bytes => .ok (UInt64.ofNat (Bytes.number .big bytes))
  | none => .error (.data .unreadable)

/-- Value of a floating point constant; a spelling that is no double is kept as text. -/
def constantFloat (text : String) : Reading Literal := do
  let word ← lastWord text
  if Text.startsWith word "0x" && (Text.points word).length = 18 then
    Toolkit.literalOfBits (← bitsOfHex (Text.dropStart 2 word))
  else match Text.readFloat? word with
    | some bits => Toolkit.literalOfBits bits
    | none => return .text word

def operand (value : Value) : Reading Operand :=
  let localName := if value.name.isEmpty then "%?" else "%" ++ value.name
  match value.kind with
  | .argument => return { type := .register, text := localName }
  | .instruction => return { type := .register, text := localName }
  | .constantInt => do
      let constant ← constantInt value.text
      return { type := .immediate, value := some (.int constant), text := value.text }
  | .constantFloat => do
      let constant ← constantFloat value.text
      return { type := .floatPoint, value := some constant, text := value.text }
  | .nullPointer => return { type := .immediate, value := some (.int 0), text := "null" }
  | .basicBlock =>
      return { type := .code, text := "%" ++ (blockLabel? value.name value.text).getD "None" }
  | .function => do
      let symbol ← Toolkit.demangle value.name
      return { type := .symbol, value := some (.text symbol), text := "@" ++ value.name }
  | .globalVariable => return { type := .memory, text := "@" ++ value.name }
  | .globalAlias => return { type := .memory, text := "@" ++ value.name }
  | .undefined => return { type := .unknown, text := "undef" }
  | .poison => return { type := .unknown, text := "poison" }
  | .other name => return { type := .register, text := name }

/-- The word behind a comparison that starts here: `icmp` or `fcmp`, blanks, then a word. -/
def predicateHere? (text : List Char) : Option String :=
  match text with
  | kind :: 'c' :: 'm' :: 'p' :: rest =>
      let word := (rest.dropWhile Text.isBlank).takeWhile Text.isWordChar
      if (kind = 'i' || kind = 'f') && (rest.head?.any Text.isBlank) && !word.isEmpty then
        some (String.ofList word)
      else none
  | _ => none

/-- The predicate of the first comparison in a text; `inWord` tells whether a word goes on. -/
def predicate? (inWord : Bool) : List Char → Option String
  | [] => none
  | char :: rest =>
      match if inWord then none else predicateHere? (char :: rest) with
      | some word => some word
      | none => predicate? (Text.isWordChar char) rest

def mnemonicOf (opcode text : String) : String :=
  if opcode = "icmp" || opcode = "fcmp" then
    match predicate? false text.toList with
    | some word => opcode ++ "." ++ word
    | none => opcode
  else opcode

abbrev Starts := List (String × Int)

/-- Labels of blocks from a position on, with the numbers of their first instructions. -/
def startsFrom : Nat → Nat → List BlockValue → Starts
  | _, _, [] => []
  | position, index, block :: rest =>
      (labelOr (blockLabel? block.name block.text) (toString position), index) ::
        startsFrom (position + 1) (index + block.instructions.length) rest

def starts (function : FunctionValue) : Starts :=
  startsFrom 0 0 function.blocks

def targetOf (starts : Starts) (value : Value) : Except Fault Int :=
  match Table.find? starts (labelOr (blockLabel? value.name value.text) "0") with
  | some index => .ok index
  | none => .error (.data .unknownKey)

def targetAt (starts : Starts) (values : List Value) (position : Nat) : Except Fault Int := do
  targetOf starts (← Position.pick values position)

structure Branching where
  flow : Flow
  targets : List Int := []
  caseValues : List (Option Int) := []

def Branching.towards (flow : Flow) (targets : List Int) : Branching :=
  { flow := flow, targets := targets, caseValues := noCaseValues targets }

def switchCases (starts : Starts) : List Value → Except Fault (List (Int × Option Int))
  | value :: destination :: rest => do
      let target ← targetOf starts destination
      let constant ← constantInt value.text
      return (target, some constant) :: (← switchCases starts rest)
  | _ => .ok []

def generalTerminators : List String := ["callbr", "catchswitch", "catchret", "cleanupret"]

/-- Branching of an instruction by its opcode. The operands of a conditional branch are the
condition, the destination when it fails and the one when it holds. -/
def branching (starts : Starts) (opcode : String) (values : List Value) :
    Except Fault Branching := do
  let blocks := values.filter fun value => value.kind = .basicBlock
  if opcode = "br" then
    if values.length = 3 then
      return .towards .condJump [← targetAt starts values 2, ← targetAt starts values 1]
    else return .towards .jump [← targetAt starts values 0]
  else if opcode = "switch" then
    let default ← targetAt starts values 1
    let cases ← switchCases starts (values.drop 2)
    return { flow := .switch
             targets := default :: cases.map Prod.fst
             caseValues := none :: cases.map Prod.snd }
  else if opcode = "indirectbr" then
    return .towards .indirectJump (← blocks.mapM (targetOf starts))
  else if opcode = "invoke" then
    return .towards .callWithUnwind (← blocks.mapM (targetOf starts))
  else if opcode = "ret" || opcode = "resume" then return .towards .ret []
  else if opcode = "unreachable" then return .towards .trap []
  else if opcode = "call" then return .towards .call []
  else if generalTerminators.contains opcode then
    if blocks.isEmpty then return .towards .ret []
    else return .towards .indirectJump (← blocks.mapM (targetOf starts))
  else return .towards .sequential []

def instruction (starts : Starts) (index : Nat) (value : InstructionValue) :
    Reading Instruction := do
  let text := Text.trim value.text
  let operands ← value.operands.mapM operand
  let branching ← branching starts value.opcode value.operands
  return { address := index
           mnemonic := mnemonicOf value.opcode text
           text := text
           operands := operands
           flow := branching.flow
           targets := branching.targets
           caseValues := branching.caseValues }

def instructionsFrom (starts : Starts) : Nat → List InstructionValue → Reading (List Instruction)
  | _, [] => pure []
  | index, value :: rest => do
      let first ← instruction starts index value
      let others ← instructionsFrom starts (index + 1) rest
      return first :: others

def labels (function : FunctionValue) : List (Int × String) :=
  Table.collect ((starts function).map fun (label, index) => (index, label))

/-- A function of a module; its address is its number among the functions. -/
def rawFunction (function : FunctionValue) (address : Int) : Reading RawFunction := do
  let body ← instructionsFrom (starts function) 0
    (function.blocks.flatMap BlockValue.instructions)
  return { name := function.name
           address := address
           labels := labels function
           stream := pure body }

def describe (function : FunctionValue) : String :=
  s!"<FunctionBackendBitcode:{function.name}>"

end FlowAlign.Bitcode
