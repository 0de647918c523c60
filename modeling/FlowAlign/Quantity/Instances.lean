import FlowAlign.Decimal.Layout
import FlowAlign.Quantity

/-! Floating point numbers and exact rationals as quantities. -/

namespace FlowAlign

/-- The smaller of two floating point numbers; not a number as soon as one of them is not. -/
def leastFloat (first second : Float) : Float :=
  if first.isNaN then first
  else if second.isNaN then second
  else if first < second then first else second

instance : Quantity Float where
  whole := Float.ofNat
  le first second := decide (first ≤ second)
  least := leastFloat
  magnitude := Float.abs
  tolerance := 1e-9
  spell := Decimal.floatText

instance : Quantity Rat where
  whole value := (value : Rat)
  le first second := decide (first ≤ second)
  least first second := if first < second then first else second
  magnitude value := if value < 0 then -value else value
  tolerance := mkRat 1 1000000000
  spell value := toString value

end FlowAlign
