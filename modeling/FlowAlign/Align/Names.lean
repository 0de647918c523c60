import FlowAlign.Align.Chain
import FlowAlign.Align.Global
import FlowAlign.Align.Options
import FlowAlign.Measure

/-!
Alignment by name, for functions with too many blocks: blocks whose label is unique on both sides
are paired if they are similar enough, keeping a longest chain of such pairs in order.
-/

namespace FlowAlign.Align

variable {α : Type} [Quantity α]

/-- Positions of the blocks of both graphs that carry a label found once on either side. -/
def namesakes (primary secondary : List String) : List (Nat × Nat) :=
  primary.zipIdx.filterMap fun (label, row) =>
    if primary.count label = 1 && secondary.count label = 1 then
      (secondary.idxOf? label).map fun column => (row, column)
    else none

def eligibleNamesakes (options : Options α) (primary secondary : FlowGraph) (measure : Measure α) :
    List (Nat × Nat) → Except Fault (Measure α × List (Nat × Nat))
  | [] => .ok (measure, [])
  | (row, column) :: rest =>
      match primary.blocks[row]?, secondary.blocks[column]? with
      | some first, some second => do
          let (measure, similarity) := measure.similarity first.tokens second.tokens
          let (measure, others) ← eligibleNamesakes options primary secondary measure rest
          return (measure, if options.isEligible similarity then (row, column) :: others else others)
      | _, _ => .error (.data .outOfRange)

def gapsBetween (row column nextRow nextColumn : Nat) : List Step :=
  (List.range' row (nextRow - row)).map Step.deletion ++
    (List.range' column (nextColumn - column)).map Step.insertion

def fillGaps (height width : Nat) : Nat → Nat → List (Nat × Nat) → List Step
  | row, column, [] => gapsBetween row column height width
  | row, column, (nextRow, nextColumn) :: rest =>
      gapsBetween row column nextRow nextColumn ++
        .pairing nextRow nextColumn :: fillGaps height width (nextRow + 1) (nextColumn + 1) rest

def nameAlignment (options : Options α) (measure : Measure α) (primary secondary : FlowGraph) :
    Except Fault (Measure α × List Step) := do
  let (measure, anchors) ← eligibleNamesakes options primary secondary measure
    (namesakes primary.display.labels secondary.display.labels)
  let chain := longestChain (anchors.map fun anchor => Int.ofNat anchor.2)
  let pairs := chain.filterMap fun position => anchors[position]?
  return (measure, fillGaps primary.size secondary.size 0 0 pairs)

end FlowAlign.Align
