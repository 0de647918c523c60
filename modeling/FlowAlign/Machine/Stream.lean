import FlowAlign.Avr.Decode
import FlowAlign.Image.Basic
import FlowAlign.Machine.JumpTable
import FlowAlign.Program

/-!
Instructions of a function in machine code. Called functions are named by the relocations or the
symbols of the object; a relocated jump leaves the function; a jump table gives its jump targets.
-/

namespace FlowAlign.FunctionSlice

open Machine

def relocation? (slice : FunctionSlice) (address : Int) (size : Int) : Option String :=
  (List.range size.toNat).findSome? fun (offset : Nat) => Table.find? slice.relocations (address + offset)

def relocatedOffsets (slice : FunctionSlice) (address : Int) (size : Int) : List Int :=
  ((List.range size.toNat).filter fun (offset : Nat) =>
    (Table.find? slice.relocations (address + offset)).isSome).map Int.ofNat

def calleeSymbol? (slice : FunctionSlice) (address : Int) (size : Int) (targets : List Int) :
    Option String :=
  match slice.relocation? address size with
  | some symbol => some symbol
  | none => targets.head?.bind (Table.find? slice.symbols)

/-- Readable name of the function that an instruction calls, nothing for other instructions. -/
def callee (slice : FunctionSlice) (demangler : Symbol.Demangler) (address : Int) (size : Int)
    (control : Control) : Logged Fault (Option String) :=
  if control.flow = .call then
    match slice.calleeSymbol? address size control.targets with
    | some symbol => do return some (← Symbol.demangle demangler symbol)
    | none => pure none
  else pure none

/-- Whether an instruction is a jump that a relocation leads out of the function. -/
def isRelocatedJump (slice : FunctionSlice) (address : Int) (size : Int) (flow : Flow) : Bool :=
  (flow = .jump || flow = .condJump) && (slice.relocation? address size).isSome

/-- Targets of the jump table that an indirect jump reads, nothing when it reads none. -/
def tableTargets (slice : FunctionSlice) (format : Format) (decoded : Decoded)
    (earlier : List Decoded) : Logged Fault (Option (List Int)) :=
  if format = .x86 || format = .x64 then
    match JumpTable.recognize (format = .x64) decoded earlier with
    | none => pure none
    | some table => do
        let targets := table.targets slice.memory slice.address
          (slice.address + slice.content.length)
        if targets.isEmpty then
          let address := Text.hex table.address
          Logged.note (.debug s!"Empty jump table at {address} in `{slice.name}`")
        return some targets
  else pure none

def resolve (slice : FunctionSlice) (format : Format) (decoded : Decoded) (earlier : List Decoded)
    (control : Control) : Logged Fault Control := do
  if slice.isRelocatedJump decoded.address decoded.size control.flow then
    return { control with targets := [] }
  else if control.flow = .indirectJump then
    match ← slice.tableTargets format decoded earlier with
    | some targets => return { control with targets := targets }
    | none => return control
  else return control

def lookBehind : Nat := 16

def machineInstruction (slice : FunctionSlice) (demangler : Symbol.Demangler) (format : Format)
    (arch : Arch) (earlier : List Decoded) (decoded : Decoded) : Logged Fault Instruction := do
  let control ← Control.of arch decoded
  if decoded.isData then return instruction arch {} control decoded
  else
    let callee ← slice.callee demangler decoded.address decoded.size control
    let resolved ← slice.resolve format decoded earlier control
    let context : Context :=
      { callee := callee
        relocated := slice.relocatedOffsets decoded.address decoded.size
        memory := some slice.memory }
    return instruction arch context resolved decoded

/-- Instructions from one on; `earlier` holds those before it, the closest first. -/
def machineInstructions (slice : FunctionSlice) (demangler : Symbol.Demangler) (format : Format)
    (arch : Arch) (earlier : List Decoded) : List Decoded → Logged Fault (List Instruction)
  | [] => pure []
  | decoded :: rest => do
      let first ← slice.machineInstruction demangler format arch earlier decoded
      let others ← slice.machineInstructions demangler format arch
        ((decoded :: earlier).take lookBehind) rest
      return first :: others

def avrInstruction (slice : FunctionSlice) (demangler : Symbol.Demangler)
    (found : Instruction) : Logged Fault Instruction := do
  if found.undecoded then return found
  else if slice.isRelocatedJump found.address found.size found.flow then
    return { found with targets := [], caseValues := [] }
  else
    let control : Control := { flow := found.flow, targets := found.targets }
    match ← slice.callee demangler found.address found.size control with
    | some callee => return Avr.withCallee callee found
    | none => return found

def stream (slice : FunctionSlice) (demangler : Symbol.Demangler) (decoder : Decoder)
    (format : Format) : Logged Fault (List Instruction) :=
  if format = .avr then (Avr.decode slice.content slice.address).mapM (slice.avrInstruction demangler)
  else do
    let arch ← Arch.ofFormat format
    slice.machineInstructions demangler format arch []
      (decode decoder arch slice.thumb slice.content slice.address)

def rawFunction (slice : FunctionSlice) (demangler : Symbol.Demangler) (decoder : Decoder)
    (format : Format) : RawFunction :=
  { name := slice.name
    address := slice.address
    stream := slice.stream demangler decoder format }

def describe (slice : FunctionSlice) : String :=
  s!"<FunctionBackendNative:{slice.name}>"

end FlowAlign.FunctionSlice
