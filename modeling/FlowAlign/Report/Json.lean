import FlowAlign.Quantity.Instances
import FlowAlign.Report.Result
import FlowAlign.Text.Json

/-! Results as JSON values. -/

namespace FlowAlign

namespace Alignment

/-- Cost of an alignment; without entries it is a whole zero. -/
def costJson (alignment : Alignment Float) : Json :=
  if alignment.entries.isEmpty then .int 0 else .float alignment.cost

def labelOf? (graph : FlowGraph) (id : Option Int) : Except Fault (Option String) :=
  match id with
  | none => .ok none
  | some id => (Position.pick graph.display.labels id).map some

def labels (alignment : Alignment Float) :
    Except Fault (List (Entry Float × Option String × Option String)) :=
  alignment.entries.mapM fun entry => do
    return (entry, ← labelOf? alignment.primary entry.primary,
      ← labelOf? alignment.secondary entry.secondary)

def toJson (alignment : Alignment Float) : Except Fault Json := do
  let blocks := (← alignment.labels).map fun (entry, primary, secondary) =>
    Json.object [("primary", Json.ofText? primary), ("secondary", Json.ofText? secondary),
      ("status", .text entry.status.name), ("similarity", .float entry.similarity)]
  return .object [("primary", .text alignment.primary.name),
    ("secondary", .text alignment.secondary.name), ("cost", alignment.costJson),
    ("degraded", .bool alignment.degraded), ("blocks", .list blocks)]

end Alignment

namespace DiffRow

def kindName (row : DiffRow) : String :=
  match row.kind with
  | some op => op.name
  | none => ""

def toJson (row : DiffRow) : Json :=
  .list [.text row.kindName, .text row.primary, .text row.secondary]

end DiffRow

def labelJson (label : String) : Json :=
  if label.isEmpty then .null else .text label

def BlockDiff.toJson (block : BlockDiff Float) : Json :=
  .object [("primary", labelJson block.primaryLabel),
    ("secondary", labelJson block.secondaryLabel), ("status", .text block.status.name),
    ("similarity", .float block.entry.similarity), ("rows", .list (block.rows.map DiffRow.toJson))]

def FunctionDiff.toJson (diff : FunctionDiff Float) : Json :=
  let cost := match diff.alignment with
    | some alignment => alignment.costJson
    | none => .null
  .object [("primary", .text diff.primaryName), ("secondary", .text diff.secondaryName),
    ("status", .text diff.status.name), ("degraded", .bool diff.degraded), ("cost", cost),
    ("warnings", .list (diff.warnings.map Json.text)), ("error", Json.ofText? diff.error),
    ("blocks", .list (diff.blocks.map BlockDiff.toJson))]

def ProgramDiff.toJson (diff : ProgramDiff Float) : Json :=
  .object [("primary", .text diff.primaryName), ("secondary", .text diff.secondaryName),
    ("has_diff", .bool diff.hasDiff), ("added", .list (diff.added.map Json.text)),
    ("removed", .list (diff.removed.map Json.text)),
    ("functions", .list (diff.functions.map FunctionDiff.toJson))]

end FlowAlign
