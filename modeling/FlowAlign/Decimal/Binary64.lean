/-!
The 64-bit binary floating point format on the level of its bits: a finite number is a whole
significand times a power of two, and every ratio of naturals has a nearest number.
-/

namespace FlowAlign.Binary64

def infinity : Nat := 0x7FF0000000000000

def signBit : Nat := 0x8000000000000000

/-- The leading bit of a normal significand, which is not stored. -/
def hiddenBit : Nat := 0x10000000000000

/-- A number taken apart. A finite one is `significand * 2 ^ exponent`, with its sign aside. -/
inductive Parts where
  | finite (negative : Bool) (significand : Nat) (exponent : Int)
  | infinite (negative : Bool)
  | notANumber
  deriving DecidableEq

def parts (bits : UInt64) : Parts :=
  let value := bits.toNat
  let negative := decide (signBit ≤ value)
  let biased : Nat := value / hiddenBit % 2048
  let fraction : Nat := value % hiddenBit
  if biased = 2047 then
    if fraction = 0 then .infinite negative else .notANumber
  else if biased = 0 then .finite negative fraction (-1074)
  else .finite negative (fraction + hiddenBit) (biased - 1075)

def scaled (numerator denominator : Nat) (exponent : Int) : Nat × Nat :=
  if 0 ≤ exponent then (numerator, denominator * Nat.pow 2 exponent.toNat)
  else (numerator * Nat.pow 2 (-exponent).toNat, denominator)

/-- Quotient rounded to the nearest natural, a half going to the even neighbour. -/
def roundHalfEven (numerator denominator : Nat) : Nat :=
  let quotient := numerator / denominator
  let twice := 2 * (numerator % denominator)
  if twice < denominator then quotient
  else if denominator < twice then quotient + 1
  else if quotient % 2 = 0 then quotient else quotient + 1

/-- Exponent at which a positive ratio has a significand below `2 ^ 53`, as large as possible. -/
def exponentOf (numerator denominator : Nat) : Int :=
  let guess := max ((numerator.log2 : Int) - denominator.log2 - 53) (-1074)
  let (top, bottom) := scaled numerator denominator guess
  if top / bottom < 2 * hiddenBit then guess else guess + 1

/-- Bits of the number nearest to a ratio of naturals with a positive denominator. -/
def ofRatio (numerator denominator : Nat) : Nat :=
  if numerator = 0 then 0
  else
    let exponent := exponentOf numerator denominator
    let (top, bottom) := scaled numerator denominator exponent
    let significand := roundHalfEven top bottom
    if significand < hiddenBit then significand
    else min infinity ((exponent + 1074).toNat * hiddenBit + significand)

def ofDecimal (negative : Bool) (digits : Nat) (exponent : Int) : UInt64 :=
  let size := exponent + (Nat.toDigits 10 digits).length
  let magnitude :=
    if digits = 0 ∨ size < -330 then 0
    else if 320 < size then infinity
    else if 0 ≤ exponent then ofRatio (digits * Nat.pow 10 exponent.toNat) 1
    else ofRatio digits (Nat.pow 10 (-exponent).toNat)
  UInt64.ofNat (if negative then signBit + magnitude else magnitude)

def notANumber : UInt64 := 0x7FF8000000000000

end FlowAlign.Binary64
