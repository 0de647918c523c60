import FlowAlign.Instruction
import FlowAlign.Text.Hex

/-!
Encodings of the AVR instructions of one word. An encoding fixes some bits of a word and reads the
operands from the others; the first encoding that fits a word counts.
-/

namespace FlowAlign.Avr

structure Reading where
  mnemonic : String
  operands : List Operand := []
  flow : Flow := .sequential
  targets : List Int := []

/-- The bits of a word under `mask` must be `bits`. Reading gets the word and its address. -/
structure Encoding where
  mask : Nat
  bits : Nat
  read : Nat → Int → Option Reading

def field (word shift width : Nat) : Nat :=
  (word >>> shift) % Nat.pow 2 width

def signed (width value : Nat) : Int :=
  if 2 * value < Nat.pow 2 width then value else (value : Int) - Nat.pow 2 width

def register (number : Nat) : Operand :=
  { type := .register, text := "r" ++ toString number }

def immediate (value : Nat) : Operand :=
  { type := .immediate, value := some (.int value), text := Text.hex value }

def memory (text : String) : Operand :=
  { type := .memory, text := text }

def dataAddress (number : Nat) : Operand :=
  memory (Text.hex number)

def code (target : Int) : Operand :=
  { type := .code, text := Text.hex target }

def destination (word : Nat) : Operand :=
  register (field word 4 5)

def sourceNumber (word : Nat) : Nat :=
  field word 0 4 + 16 * field word 9 1

/-- An encoding of an instruction that continues with the next one. -/
def plain (mask bits : Nat) (mnemonic : String) (operands : Nat → List Operand) : Encoding :=
  { mask := mask, bits := bits
    read := fun word _ => some { mnemonic := mnemonic, operands := operands word } }

def chosen (mask bits : Nat) (names : List String) (choose : Nat → Nat)
    (operands : Nat → List Operand) : Encoding :=
  { mask := mask, bits := bits
    read := fun word _ =>
      names[choose word]?.map fun mnemonic => { mnemonic := mnemonic, operands := operands word } }

def fixedWords : List Encoding :=
  [(0x0000, "nop", Flow.sequential), (0x9409, "ijmp", .indirectJump),
   (0x9419, "eijmp", .indirectJump), (0x9508, "ret", .ret), (0x9518, "reti", .ret),
   (0x9509, "icall", .call), (0x9519, "eicall", .call), (0x9588, "sleep", .sequential),
   (0x9598, "break", .trap), (0x95a8, "wdr", .sequential), (0x95c8, "lpm", .sequential),
   (0x95d8, "elpm", .sequential), (0x95e8, "spm", .sequential)].map fun (bits, name, flow) =>
    { mask := 0xffff, bits := bits
      read := fun _ _ => some { mnemonic := name, flow := flow } }

def multiplications : List Encoding :=
  [plain 0xff00 0x0100 "movw" fun word =>
     [register (2 * field word 4 4), register (2 * field word 0 4)],
   plain 0xff00 0x0200 "muls" fun word =>
     [register (16 + field word 4 4), register (16 + field word 0 4)],
   chosen 0xff00 0x0300 ["mulsu", "fmul", "fmuls", "fmulsu"]
     (fun word => 2 * field word 7 1 + field word 3 1)
     fun word => [register (16 + field word 4 3), register (16 + field word 0 3)]]

/-- An operation on two registers, which has another name when they are the same. -/
def twoRegisters (bits : Nat) (mnemonic : String) (onSame : Option String) : Encoding :=
  { mask := 0xfc00, bits := bits
    read := fun word _ =>
      let source := sourceNumber word
      match onSame with
      | some name =>
          if field word 4 5 = source then some { mnemonic := name, operands := [destination word] }
          else some { mnemonic := mnemonic, operands := [destination word, register source] }
      | none => some { mnemonic := mnemonic, operands := [destination word, register source] } }

def arithmetic : List Encoding :=
  [twoRegisters 0x0400 "cpc" none, twoRegisters 0x0800 "sbc" none,
   twoRegisters 0x0c00 "add" (some "lsl"), twoRegisters 0x1000 "cpse" none,
   twoRegisters 0x1400 "cp" none, twoRegisters 0x1800 "sub" none,
   twoRegisters 0x1c00 "adc" (some "rol"), twoRegisters 0x2000 "and" (some "tst"),
   twoRegisters 0x2400 "eor" none, twoRegisters 0x2800 "or" none,
   twoRegisters 0x2c00 "mov" none, twoRegisters 0x9c00 "mul" none]

def constants : List Encoding :=
  [(0x3000, "cpi"), (0x4000, "sbci"), (0x5000, "subi"), (0x6000, "ori"), (0x7000, "andi"),
   (0xe000, "ldi")].map fun (bits, name) =>
    plain 0xf000 bits name fun word =>
      [register (16 + field word 4 4), immediate (16 * field word 8 4 + field word 0 4)]

/-- Operands of a load or of a store, the memory first in a store. -/
def transfer (store : Bool) (word : Nat) (place : Operand) : List Operand :=
  if store then [place, destination word] else [destination word, place]

def displaced : Encoding :=
  { mask := 0xd000, bits := 0x8000
    read := fun word _ =>
      let displacement := 32 * field word 13 1 + 8 * field word 10 2 + field word 0 3
      let pointer := if field word 3 1 = 1 then "Y" else "Z"
      let store := field word 9 1 = 1
      if displacement = 0 then
        some { mnemonic := if store then "st" else "ld"
               operands := transfer store word (memory pointer) }
      else
        some { mnemonic := if store then "std" else "ldd"
               operands := transfer store word (memory (pointer ++ "+" ++ toString displacement)) } }

/-- Access through a pointer in some mode, for the low bits of the word. -/
def pointed : List Encoding :=
  [(0x1, "Z+"), (0x2, "-Z"), (0x9, "Y+"), (0xa, "-Y"), (0xc, "X"), (0xd, "X+"),
   (0xe, "-X")].flatMap fun (mode, text) =>
    [plain 0xfe0f (0x9000 + mode) "ld" fun word => transfer false word (memory text),
     plain 0xfe0f (0x9200 + mode) "st" fun word => transfer true word (memory text)]

def special : List Encoding :=
  [plain 0xfe0f 0x900f "pop" fun word => [destination word],
   plain 0xfe0f 0x920f "push" fun word => [destination word],
   plain 0xfe0f 0x9004 "lpm" fun word => transfer false word (memory "Z"),
   plain 0xfe0f 0x9005 "lpm" fun word => transfer false word (memory "Z+"),
   plain 0xfe0f 0x9006 "elpm" fun word => transfer false word (memory "Z"),
   plain 0xfe0f 0x9007 "elpm" fun word => transfer false word (memory "Z+"),
   plain 0xfe0f 0x9204 "xch" fun word => transfer true word (memory "Z"),
   plain 0xfe0f 0x9205 "las" fun word => transfer true word (memory "Z"),
   plain 0xfe0f 0x9206 "lac" fun word => transfer true word (memory "Z"),
   plain 0xfe0f 0x9207 "lat" fun word => transfer true word (memory "Z")]

def singles : List Encoding :=
  [chosen 0xff8f 0x9408 ["sec", "sez", "sen", "sev", "ses", "seh", "set", "sei"]
     (fun word => field word 4 3) fun _ => [],
   chosen 0xff8f 0x9488 ["clc", "clz", "cln", "clv", "cls", "clh", "clt", "cli"]
     (fun word => field word 4 3) fun _ => [],
   plain 0xff0f 0x940b "des" fun word => [immediate (field word 4 4)]] ++
  [(0x0, "com"), (0x1, "neg"), (0x2, "swap"), (0x3, "inc"), (0x5, "asr"), (0x6, "lsr"),
   (0x7, "ror"), (0xa, "dec")].map fun (low, name) =>
    plain 0xfe0f (0x9400 + low) name fun word => [destination word]

def inputOutput : List Encoding :=
  [chosen 0xfe00 0x9600 ["adiw", "sbiw"] (fun word => field word 8 1) fun word =>
     [register (24 + 2 * field word 4 2), immediate (16 * field word 6 2 + field word 0 4)],
   chosen 0xfc00 0x9800 ["cbi", "sbic", "sbi", "sbis"] (fun word => field word 8 2) fun word =>
     [dataAddress (field word 3 5), immediate (field word 0 3)],
   chosen 0xf000 0xb000 ["in", "out"] (fun word => field word 11 1) fun word =>
     transfer (field word 11 1 = 1) word (dataAddress (16 * field word 9 2 + field word 0 4))]

def transferTo (mnemonic : String) (flow : Flow) (target : Int) : Reading :=
  { mnemonic := mnemonic, operands := [code target], flow := flow, targets := [target] }

/-- Relative jumps and calls, branches on a flag, and tests of a bit. -/
def branches : List Encoding :=
  [{ mask := 0xf000, bits := 0xc000
     read := fun word address => some
       (transferTo "rjmp" .jump (address + 2 + 2 * signed 12 (field word 0 12))) },
   { mask := 0xf000, bits := 0xd000
     read := fun word address => some
       (transferTo "rcall" .call (address + 2 + 2 * signed 12 (field word 0 12))) },
   { mask := 0xf800, bits := 0xf000
     read := fun word address =>
       let names := if field word 10 1 = 1 then
           ["brcc", "brne", "brpl", "brvc", "brge", "brhc", "brtc", "brid"]
         else ["brcs", "breq", "brmi", "brvs", "brlt", "brhs", "brts", "brie"]
       names[field word 0 3]?.map fun mnemonic =>
         transferTo mnemonic .condJump (address + 2 + 2 * signed 7 (field word 3 7)) },
   chosen 0xf808 0xf800 ["bld", "bst", "sbrc", "sbrs"] (fun word => field word 9 2) fun word =>
     [destination word, immediate (field word 0 3)]]

def encodings : List Encoding :=
  fixedWords ++ multiplications ++ arithmetic ++ constants ++ [displaced] ++ pointed ++ special ++
    singles ++ inputOutput ++ branches

def readShort (word : Nat) (address : Int) : Option Reading := do
  let encoding ← encodings.find? fun encoding => word &&& encoding.mask = encoding.bits
  encoding.read word address

end FlowAlign.Avr
