/-!
The arithmetic of costs and similarities. Alignments run on floating point numbers; the same
definitions on exact rationals are the ones that can be reasoned about.
-/

namespace FlowAlign

class Quantity (α : Type) extends Add α, Sub α, Mul α, Div α where
  whole : Nat → α
  le : α → α → Bool
  /-- The smaller of two, the second when they are equal. -/
  least : α → α → α
  magnitude : α → α
  tolerance : α
  spell : α → String

namespace Quantity

variable {α : Type} [Quantity α]

/-- Whether two quantities differ by at most the tolerance. -/
def near (first second : α) : Bool :=
  le (magnitude (first - second)) tolerance

end Quantity

end FlowAlign
