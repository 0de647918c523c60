import FlowAlign.Fault

/-! Bytes and the numbers written in them. -/

namespace FlowAlign

abbrev Bytes := List UInt8

inductive Endian where
  | little
  | big
  deriving DecidableEq

namespace Bytes

def littleNumber (bytes : Bytes) : Nat :=
  bytes.foldr (fun byte value => byte.toNat + 256 * value) 0

def number (endian : Endian) (bytes : Bytes) : Nat :=
  match endian with
  | .little => littleNumber bytes
  | .big => littleNumber bytes.reverse

def signed (width value : Nat) : Int :=
  if 2 * value < Nat.pow 256 width then value else (value : Int) - Nat.pow 256 width

/-- Number of a given width at an offset; nothing when the bytes end before it does. -/
def field? (data : Bytes) (endian : Endian) (width offset : Nat) : Option Nat :=
  if offset + width ≤ data.length then some (number endian ((data.drop offset).take width))
  else none

def field (data : Bytes) (endian : Endian) (width offset : Nat) : Except Fault Nat :=
  match data.field? endian width offset with
  | some value => .ok value
  | none => .error (.data .cutShort)

def startsWith (data start : Bytes) : Bool :=
  start.isPrefixOf data

end Bytes

end FlowAlign
