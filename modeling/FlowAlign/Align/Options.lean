import FlowAlign.Quantity

/-! Parameters of the block alignment. -/

namespace FlowAlign

structure Options (α : Type) where
  matchThreshold : α
  modifyThreshold : α
  gapCost : α
  topologyWeight : α
  edgePenalty : α
  /-- Number of blocks above which blocks are matched by name only. -/
  maxBlocks : Int
  maxIterations : Int

namespace Options

variable {α : Type} [Quantity α]

def standard : Options α :=
  { matchThreshold := Quantity.whole 1
    modifyThreshold := Quantity.whole 1 / Quantity.whole 2
    gapCost := Quantity.whole 1 / Quantity.whole 2
    topologyWeight := Quantity.whole 1 / Quantity.whole 4
    edgePenalty := Quantity.whole 1 / Quantity.whole 4
    maxBlocks := 2000
    maxIterations := 8 }

/-- Cost of a pair that must never be chosen: more than two gaps. -/
def ineligibleCost (options : Options α) : α :=
  Quantity.whole 2 * options.gapCost + Quantity.whole 1

def isEligible (options : Options α) (similarity : α) : Bool :=
  Quantity.le (options.modifyThreshold - Quantity.tolerance) similarity &&
    Quantity.le (Quantity.whole 1 - similarity)
      (Quantity.whole 2 * options.gapCost + Quantity.tolerance)

def isMatch (options : Options α) (similarity : α) : Bool :=
  Quantity.le (options.matchThreshold - Quantity.tolerance) similarity

end Options

end FlowAlign
