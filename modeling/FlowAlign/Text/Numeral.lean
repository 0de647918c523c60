import FlowAlign.Decimal.Binary64
import FlowAlign.Text.Blank
import FlowAlign.Text.Digit

/-!
Numerals in text. White space around a numeral is ignored, digits of every script count, and a low
line may stand between two digits.
-/

namespace FlowAlign.Text

/-- White space around a numeral; the information separators do not belong to it. -/
def isNumeralBlank (char : Char) : Bool :=
  isBlank char && !(decide (28 ≤ char.toNat) && decide (char.toNat ≤ 31))

/-- A digit of any script as its ASCII digit, every other character as it is. -/
def asciiDigit (char : Char) : Char :=
  match digitValue? char with
  | some value => Char.ofNat (48 + value)
  | none => char

/-- Removes the low lines that stand between digits; nothing when one stands elsewhere. -/
def dropLowLines (before : Bool) : List Char → Option (List Char)
  | [] => some []
  | '_' :: next :: rest =>
      if before && next.isDigit then dropLowLines false (next :: rest) else none
  | ['_'] => none
  | char :: rest => (dropLowLines char.isDigit rest).map (char :: ·)

/-- Characters of a numeral: trimmed, in ASCII digits, without low lines. -/
def numeralChars? (text : String) : Option (List Char) :=
  let chars := dropEndWhile isNumeralBlank (text.toList.dropWhile isNumeralBlank)
  dropLowLines false (chars.map asciiDigit)

def splitSign : List Char → Bool × List Char
  | '+' :: rest => (false, rest)
  | '-' :: rest => (true, rest)
  | chars => (false, chars)

def decimalValue (digits : List Char) : Nat :=
  digits.foldl (fun value digit => 10 * value + (digit.toNat - 48)) 0

def maxDigits : Nat := 4300

def readInt? (text : String) : Option Int := do
  let (negative, digits) := splitSign (← numeralChars? text)
  if digits.isEmpty || !digits.all Char.isDigit || maxDigits < digits.length then none
  else some (if negative then -(decimalValue digits) else decimalValue digits)

/-- Exponent at the end of a decimal numeral, zero when there is none. -/
def readExponent? : List Char → Option Int
  | [] => some 0
  | mark :: rest =>
      let (negative, digits) := splitSign rest
      if (mark == 'e' || mark == 'E') && !digits.isEmpty && digits.all Char.isDigit then
        some (if negative then -(decimalValue digits) else decimalValue digits)
      else none

/-- Bits of the number written in text: a decimal numeral or the name of a special value. -/
def readFloat? (text : String) : Option UInt64 := do
  let (negative, body) := splitSign (← numeralChars? text)
  let sign := if negative then UInt64.ofNat Binary64.signBit else 0
  let name := String.ofList (body.map Char.toLower)
  if name == "inf" || name == "infinity" then some (UInt64.ofNat Binary64.infinity + sign)
  else if name == "nan" then some Binary64.notANumber
  else
    let whole := body.takeWhile Char.isDigit
    let rest := body.dropWhile Char.isDigit
    let (fraction, tail) := match rest with
      | '.' :: after => (after.takeWhile Char.isDigit, after.dropWhile Char.isDigit)
      | _ => ([], rest)
    if whole.isEmpty && fraction.isEmpty then none
    else
      let exponent ← readExponent? tail
      some (Binary64.ofDecimal negative (decimalValue (whole ++ fraction))
        (exponent - fraction.length))

end FlowAlign.Text
