/-! Membership of code points in tables of closed ranges. -/

namespace FlowAlign.Text

/-- Whether a code point lies in one of the closed ranges of a table. -/
def inRanges (table : List (Nat × Nat)) (point : Nat) : Bool :=
  table.any fun range => decide (range.1 ≤ point) && decide (point ≤ range.2)

end FlowAlign.Text
