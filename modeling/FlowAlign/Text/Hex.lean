/-! Hexadecimal spelling of integers and bytes. -/

namespace FlowAlign.Text

def hexDigit (value : Nat) : Char :=
  if value < 10 then Char.ofNat (48 + value) else Char.ofNat (87 + value)

def hexDigits (value : Nat) : List Char :=
  Nat.toDigits 16 value

/-- Hexadecimal digits in a field of at least `width` places, filled with zeros. -/
def hexField (width value : Nat) : String :=
  let digits := hexDigits value
  String.ofList (List.replicate (width - digits.length) '0' ++ digits)

/-- Integer with its `0x` mark, the sign standing in front. -/
def hex (value : Int) : String :=
  (if value < 0 then "-0x" else "0x") ++ String.ofList (hexDigits value.natAbs)

def hexBytes (bytes : List UInt8) : String :=
  String.ofList (bytes.flatMap fun byte => [hexDigit (byte.toNat / 16), hexDigit (byte.toNat % 16)])

def hexValue? (char : Char) : Option Nat :=
  if '0' ≤ char ∧ char ≤ '9' then some (char.toNat - 48)
  else if 'a' ≤ char ∧ char ≤ 'f' then some (char.toNat - 87)
  else if 'A' ≤ char ∧ char ≤ 'F' then some (char.toNat - 55)
  else none

def isByteBlank (char : Char) : Bool :=
  char == ' ' || (decide (9 ≤ char.toNat) && decide (char.toNat ≤ 13))

/-- Bytes written with two digits each and blanks between them; nothing when a digit is wrong or
missing. -/
def unhex? : List Char → Option (List UInt8)
  | [] => some []
  | [last] => if isByteBlank last then some [] else none
  | high :: low :: rest =>
      if isByteBlank high then unhex? (low :: rest)
      else do
        let top ← hexValue? high
        let bottom ← hexValue? low
        let bytes ← unhex? rest
        return UInt8.ofNat (16 * top + bottom) :: bytes

end FlowAlign.Text
