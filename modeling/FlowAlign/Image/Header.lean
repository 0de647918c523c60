import FlowAlign.Image.Bytes

/-! What the first bytes of a file say: its kind and the architecture of its code. -/

namespace FlowAlign

namespace Magic

def elf : Bytes := [0x7f, 0x45, 0x4c, 0x46]

def littleMacho : List Bytes := [[0xce, 0xfa, 0xed, 0xfe], [0xcf, 0xfa, 0xed, 0xfe]]

def bigMacho : List Bytes := [[0xfe, 0xed, 0xfa, 0xce], [0xfe, 0xed, 0xfa, 0xcf]]

def fat : Bytes := [0xca, 0xfe, 0xba, 0xbe]

def wideFat : Bytes := [0xca, 0xfe, 0xba, 0xbf]

def pe : Bytes := [0x4d, 0x5a]

def peHeader : Bytes := [0x50, 0x45, 0, 0]

def archive : Bytes := [0x21, 0x3c, 0x61, 0x72, 0x63, 0x68, 0x3e, 0x0a]

def bitcode : List Bytes := [[0x42, 0x43, 0xc0, 0xde], [0xde, 0xc0, 0x17, 0x0b]]

end Magic

namespace FileKind

/-- Whether bytes start a universal file. Java class files share the mark; what is the number of
slices here is their version, which is at least 45. -/
def isUniversal (data : Bytes) : Bool :=
  (data.startsWith Magic.fat || data.startsWith Magic.wideFat) &&
    (data.field? .big 4 4).any fun count => decide (count < 45)

def ofBytes (data : Bytes) : FileKind :=
  if data.startsWith Magic.elf then .elf
  else if (Magic.littleMacho ++ Magic.bigMacho).any data.startsWith then .macho
  else if isUniversal data then .fatMacho
  else if data.startsWith Magic.pe then .pe
  else if data.startsWith Magic.archive then .archive
  else if Magic.bitcode.any data.startsWith then .bitcode
  else .unknown

end FileKind

namespace Architecture

def ofElf? (machine : Nat) : Option Format :=
  [(3, .x86), (62, .x64), (40, .arm32), (183, .arm64), (83, .avr)].lookup machine

def ofMacho? (cpuType : Nat) : Option Format :=
  [(0x7, .x86), (0x01000007, .x64), (0xc, .arm32), (0x0100000c, .arm64)].lookup cpuType

def ofPe? (machine : Nat) : Option Format :=
  [(0x14c, .x86), (0x8664, .x64), (0x1c0, .arm32), (0x1c2, .arm32), (0x1c4, .arm32),
   (0xaa64, .arm64)].lookup machine

def elfEndian? (data : Bytes) : Option Endian :=
  data[5]?.map fun order => if order = 1 then .little else .big

def elfMachine? (data : Bytes) : Option Nat := do
  data.field? (← elfEndian? data) 2 18

def machoCpuType? (data : Bytes) : Option Nat :=
  data.field? (if Magic.littleMacho.any data.startsWith then .little else .big) 4 4

/-- Machine number of a PE file, behind the mark that its header must start with. -/
def peMachine (data : Bytes) : Except InputFault Nat :=
  match data.field? .little 4 0x3c with
  | none => .error (.truncatedHeader .pe)
  | some offset =>
      if (data.drop offset).take 4 ≠ Magic.peHeader then .error .badSignature
      else match data.field? .little 2 (offset + 4) with
        | none => .error (.truncatedHeader .pe)
        | some machine => .ok machine

/-- A number of a header, or the fault that the header ends before it. -/
def required (kind : FileKind) (value : Option Nat) : Except InputFault Nat :=
  match value with
  | some number => .ok number
  | none => .error (.truncatedHeader kind)

/-- Architecture that a header declares; none for an unsupported one. -/
def ofHeader (data : Bytes) (kind : FileKind) : Except InputFault (Option Format) :=
  match kind with
  | .elf => (required .elf (elfMachine? data)).map ofElf?
  | .macho => (required .macho (machoCpuType? data)).map ofMacho?
  | .pe => (peMachine data).map ofPe?
  | _ => .ok none

end Architecture

end FlowAlign
