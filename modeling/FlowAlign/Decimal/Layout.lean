import FlowAlign.Decimal.Shortest

/-!
Layout of a number from its shortest digits. The layout record says where positional notation ends,
whether a whole number keeps a fraction, and how the exponent and the special values are spelled.
-/

namespace FlowAlign.Decimal

structure Layout where
  lowestPoint : Int
  highestPoint : Int
  wholeFraction : String
  exponentMark : String
  exponentWidth : Nat
  notANumber : String
  infinite : String

/-- Numbers in results: positional from `0.0001` to below `10 ^ 16`, a whole number ends in `.0`, an
exponent has a sign and at least two digits. -/
def Layout.result : Layout :=
  { lowestPoint := -3
    highestPoint := 16
    wholeFraction := ".0"
    exponentMark := "e"
    exponentWidth := 2
    notANumber := "nan"
    infinite := "inf" }

def digitText (digits : List Nat) : String :=
  String.ofList (digits.map fun digit => Char.ofNat (48 + digit))

def zeros (count : Nat) : String :=
  String.ofList (List.replicate count '0')

def Layout.positional (layout : Layout) (number : Digits) : String :=
  let count : Int := number.digits.length
  if number.point ≤ 0 then "0." ++ zeros (-number.point).toNat ++ digitText number.digits
  else if count ≤ number.point then
    digitText number.digits ++ zeros (number.point - count).toNat ++ layout.wholeFraction
  else
    digitText (number.digits.take number.point.toNat) ++ "." ++
      digitText (number.digits.drop number.point.toNat)

def Layout.scientific (layout : Layout) (number : Digits) : String :=
  let exponent := number.point - 1
  let written := toString exponent.natAbs
  let fraction := number.digits.drop 1
  digitText (number.digits.take 1) ++
    (if fraction.isEmpty then "" else "." ++ digitText fraction) ++ layout.exponentMark ++
    (if exponent < 0 then "-" else "+") ++ zeros (layout.exponentWidth - written.length) ++ written

def Layout.render (layout : Layout) (bits : UInt64) : String :=
  match Binary64.parts bits with
  | .notANumber => layout.notANumber
  | .infinite negative => (if negative then "-" else "") ++ layout.infinite
  | .finite negative significand exponent =>
      let number : Digits := if significand = 0 then { digits := [0], point := 1 }
        else shortest significand exponent
      let text := if layout.lowestPoint ≤ number.point ∧ number.point ≤ layout.highestPoint then
          layout.positional number
        else layout.scientific number
      (if negative then "-" else "") ++ text

def floatText (value : Float) : String :=
  Layout.result.render value.toBits

end FlowAlign.Decimal
