import FlowAlign.Decimal.Binary64

/-!
The fewest decimal digits that read back to a binary number. The reals that round to the number form
an interval; for one digit, two digits and so on the two neighbours of the number on that decimal
grid are tried, and the nearest one inside the interval is taken.
-/

namespace FlowAlign.Decimal

structure Digits where
  digits : List Nat
  point : Int
  deriving DecidableEq

/-- Power of ten just above a positive ratio: the place of its decimal point. -/
def pointOf (numerator denominator : Nat) : Int :=
  if denominator ≤ numerator then (Nat.toDigits 10 (numerator / denominator)).length
  else
    let count := (Nat.toDigits 10 (denominator / numerator)).length
    if denominator ≤ numerator * Nat.pow 10 (count - 1) then 2 - count else 1 - count

/-- The open or closed interval of reals that round to a number, over one denominator. -/
structure Rounding where
  low : Nat
  value : Nat
  high : Nat
  denominator : Nat
  closed : Bool

def roundingOf (significand : Nat) (exponent : Int) : Rounding :=
  let scale := Nat.pow 2 exponent.toNat
  let low := if significand = Binary64.hiddenBit ∧ -1074 < exponent then 4 * significand - 1
    else 4 * significand - 2
  { low := low * scale
    value := 4 * significand * scale
    high := (4 * significand + 2) * scale
    denominator := 4 * Nat.pow 2 (-exponent).toNat
    closed := significand % 2 == 0 }

def Rounding.holds (range : Rounding) (candidate : Nat) (place : Int) : Bool :=
  let point := candidate * Nat.pow 10 place.toNat * range.denominator
  let unit := Nat.pow 10 (-place).toNat
  if range.closed then decide (range.low * unit ≤ point) && decide (point ≤ range.high * unit)
  else decide (range.low * unit < point) && decide (point < range.high * unit)

/-- The neighbour of the number on the grid `10 ^ place` that reads back, if one does. Of two
neighbours at the same distance the even one is tried first. -/
def Rounding.nearest? (range : Rounding) (place : Int) : Option Nat :=
  let top := range.value * Nat.pow 10 (-place).toNat
  let unit := range.denominator * Nat.pow 10 place.toNat
  let below := top / unit
  let lower := 2 * (top % unit) < unit ∨ 2 * (top % unit) = unit ∧ below % 2 = 0
  let nearer := if lower then [below, below + 1] else [below + 1, below]
  nearer.find? fun candidate => decide (0 < candidate) && range.holds candidate place

/-- Tries the grids with one more digit each time; seventeen digits always suffice. -/
def Rounding.search (range : Rounding) (point : Int) : Nat → Nat → Nat × Int
  | 0, count => ((range.nearest? (point - count)).getD 0, point - count)
  | fuel + 1, count =>
      match range.nearest? (point - count) with
      | some candidate => (candidate, point - count)
      | none => range.search point fuel (count + 1)

def shortest (significand : Nat) (exponent : Int) : Digits :=
  let range := roundingOf significand exponent
  let (candidate, place) := range.search (pointOf range.value range.denominator) 17 1
  let digits := (Nat.toDigits 10 candidate).map fun char => char.toNat - 48
  let kept := (digits.reverse.dropWhile (· == 0)).reverse
  { digits := kept, point := place + digits.length }

end FlowAlign.Decimal
