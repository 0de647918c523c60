import FlowAlign.Report.Json
import FlowAlign.Text.Csv

/-! Results as lines of comma separated values. -/

namespace FlowAlign

def Alignment.toCsv (alignment : Alignment Float) : Except Fault String := do
  let lines := (← alignment.labels).map fun (entry, primary, secondary) =>
    [primary.getD "", secondary.getD "", entry.status.name, Decimal.floatText entry.similarity]
  return Text.csv (["primary_block", "secondary_block", "status", "similarity"] :: lines)

/-- Lines of a block: one for the block with an empty kind, then one for every row. -/
def BlockDiff.csvLines (names : List String) (block : BlockDiff Float) : List (List String) :=
  let start := names ++ [block.primaryLabel, block.secondaryLabel, block.status.name]
  (start ++ ["", block.primaryLabel, block.secondaryLabel]) ::
    block.rows.map fun row => start ++ [row.kindName, row.primary, row.secondary]

namespace ProgramDiff

def csvHeader : List String :=
  ["primary_function", "secondary_function", "primary_block", "secondary_block", "status", "kind",
   "primary", "secondary"]

/-- All lines under the header, in the order of the functions and their blocks. -/
def csvLines (diff : ProgramDiff Float) : List (List String) :=
  diff.functions.flatMap fun function => function.blocks.flatMap
    (BlockDiff.csvLines [function.primaryName, function.secondaryName])

def toCsv (diff : ProgramDiff Float) : String :=
  Text.csv (csvHeader :: diff.csvLines)

end ProgramDiff

end FlowAlign
