import FlowAlign.Image.Memory
import FlowAlign.Machine.Operand

/-!
Jump tables of x86 code. Compilers read them in two ways: `jmp [table + index*size]` with a table of
addresses, and `lea table, [rip + disp]; movsxd target, [table + index*4]; add target, table;
jmp target` with a table of offsets.
-/

namespace FlowAlign.Machine

structure JumpTable where
  address : Int
  entrySize : Nat
  relative : Bool := false
  deriving DecidableEq

namespace JumpTable

def noRegister : Int := 0

def direct? (entrySize : Nat) (operand : RawOperand) : Option JumpTable :=
  match operand.payload with
  | .memory base index scale displacement =>
      if base ≠ noRegister || index = noRegister || scale ≠ entrySize then none
      else some { address := displacement % Nat.pow 256 entrySize, entrySize := entrySize }
  | _ => none

/-- Register and memory of an instruction that loads from memory into a register. -/
def load? (decoded : Decoded) : Option (Int × Int × Int × Int × Int) :=
  match decoded.operands with
  | [first, second] =>
      match first.payload, second.payload with
      | .number register, .memory base index scale displacement =>
          if first.isRegister && second.isMemory then
            some (register, base, index, scale, displacement)
          else none
      | _, _ => none
  | _ => none

/-- Searches backward for the instruction that loads the address of the table into a register. -/
def searchTable (register : Int) : List Decoded → Option JumpTable
  | [] => none
  | decoded :: earlier =>
      if decoded.isData then none
      else match load? decoded with
        | some (loaded, base, index, _, displacement) =>
            if decoded.mnemonic = "lea" && loaded = register then
              if base ≠ instructionPointer || index ≠ noRegister then none
              else some { address := decoded.address + decoded.size + displacement
                          entrySize := 4, relative := true }
            else searchTable register earlier
        | none => searchTable register earlier

/-- Searches backward for the instruction that loads the jump target from a table. -/
def searchTarget (target : Int) : List Decoded → Option JumpTable
  | [] => none
  | decoded :: earlier =>
      if decoded.isData then none
      else match load? decoded with
        | some (loaded, base, _, scale, _) =>
            if decoded.mnemonic = "movsxd" && loaded = target && scale = 4 then
              searchTable base earlier
            else searchTarget target earlier
        | none => searchTarget target earlier

/-- Table read by an indirect jump; `earlier` holds the instructions before it, the closest
first. -/
def recognize (wide : Bool) (jump : Decoded) (earlier : List Decoded) : Option JumpTable :=
  match jump.operands with
  | [operand] =>
      if operand.isMemory then direct? (if wide then 8 else 4) operand
      else if operand.isRegister && wide then do
        searchTarget (← operand.number?) earlier
      else none
  | _ => none

def maxEntries : Nat := 1024

def targetOf (table : JumpTable) (entry : Bytes) : Int :=
  let value := Bytes.littleNumber entry
  if table.relative then table.address + Bytes.signed table.entrySize value else value

/-- Targets of the entries from an index on, as long as they lie inside of the given range. -/
def entries (table : JumpTable) (memory : MemoryMap) (start stop : Int) : Nat → Nat → List Int
  | 0, _ => []
  | fuel + 1, index =>
      match memory.read (table.address + index * table.entrySize) table.entrySize with
      | none => []
      | some entry =>
          let target := table.targetOf entry
          if start ≤ target ∧ target < stop then
            target :: table.entries memory start stop fuel (index + 1)
          else []

def targets (table : JumpTable) (memory : MemoryMap) (start stop : Int) : List Int :=
  (table.entries memory start stop maxEntries 0).eraseDups

end JumpTable

end FlowAlign.Machine
