import FlowAlign.Text.CodePoint

/-!
Reading bytes as text. A sequence that is not well-formed is replaced: its longest beginning that
could start a character, or one byte, becomes one replacement character.
-/

namespace FlowAlign.Text

def replacement : Nat := 0xFFFD

/-- Whether a byte continues a character whose previous bytes are given, most recent first. -/
def continues (before : List Nat) (byte : Nat) : Bool :=
  match before with
  | [0xE0] => decide (0xA0 ≤ byte ∧ byte ≤ 0xBF)
  | [0xED] => decide (0x80 ≤ byte ∧ byte ≤ 0x9F)
  | [0xF0] => decide (0x90 ≤ byte ∧ byte ≤ 0xBF)
  | [0xF4] => decide (0x80 ≤ byte ∧ byte ≤ 0x8F)
  | _ => decide (0x80 ≤ byte ∧ byte ≤ 0xBF)

/-- Number of bytes of a character by its first byte, zero when no character starts so. -/
def sequenceLength (first : Nat) : Nat :=
  if first < 0x80 then 1
  else if 0xC2 ≤ first ∧ first ≤ 0xDF then 2
  else if 0xE0 ≤ first ∧ first ≤ 0xEF then 3
  else if 0xF0 ≤ first ∧ first ≤ 0xF4 then 4
  else 0

def pointOf : List Nat → Nat
  | [a] => a
  | [a, b] => (a % 32) * 64 + b % 64
  | [a, b, c] => (a % 16) * 4096 + (b % 64) * 64 + c % 64
  | [a, b, c, d] => (a % 8) * 262144 + (b % 64) * 4096 + (c % 64) * 64 + d % 64
  | _ => replacement

/-- Reads on: `pending` holds the bytes of an unfinished character, most recent first, and
`missing` counts the bytes it still needs. -/
def decodeFrom (pending : List Nat) (missing : Nat) : List UInt8 → List Nat
  | [] => if pending.isEmpty then [] else [replacement]
  | byte :: rest =>
      let value := byte.toNat
      let start : Unit → List Nat := fun _ =>
        match sequenceLength value with
        | 0 => replacement :: decodeFrom [] 0 rest
        | 1 => value :: decodeFrom [] 0 rest
        | length + 2 => decodeFrom [value] (length + 1) rest
      match missing with
      | 0 => start ()
      | missing + 1 =>
          if continues pending value then
            match missing with
            | 0 => pointOf (value :: pending).reverse :: decodeFrom [] 0 rest
            | missing + 1 => decodeFrom (value :: pending) (missing + 1) rest
          else replacement :: start ()

def decodeUtf8 (bytes : List UInt8) : String :=
  ofPoints (decodeFrom [] 0 bytes)

def decodeAscii (bytes : List UInt8) : String :=
  ofPoints (bytes.map fun byte => if byte < 128 then byte.toNat else replacement)

/-- Text of ASCII bytes, nothing when another byte occurs. -/
def decodeAscii? (bytes : List UInt8) : Option String :=
  if bytes.all (· < 128) then some (decodeAscii bytes) else none

/-- UTF-8 bytes of a text; a surrogate has none. -/
def encodeUtf8? (text : String) : Option (List UInt8) :=
  if hasSurrogate text then none
  else some (String.ofList ((points text).map Char.ofNat)).toUTF8.toList

/-- Bytes of a code point in the name of a file, where a low surrogate may stand for a byte that is no
character. -/
def nameByte? (point : Nat) : Option (List UInt8) :=
  if 0xDC80 ≤ point ∧ point < 0xDD00 then some [UInt8.ofNat (point - 0xDC00)]
  else if isSurrogate point then none
  else some (String.singleton (Char.ofNat point)).toUTF8.toList

def nameBytes? (text : String) : Option (List UInt8) :=
  ((points text).mapM nameByte?).map List.flatten

end FlowAlign.Text
