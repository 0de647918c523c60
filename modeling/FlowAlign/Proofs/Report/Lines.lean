import FlowAlign.Proofs.Text.Csv
import FlowAlign.Report.Csv
import FlowAlign.Text.Json.Reader

/-!
The lines of comma separated values, and the rows in the JSON value of a result: a reader finds the same
texts in both, in the same order.
-/

namespace FlowAlign

namespace Json

def items : Json → List Json
  | list items => items
  | _ => []

/-- Text of a value; null is empty. -/
def asText : Json → String
  | text value => value
  | _ => ""

theorem asText_labelJson (label : String) : (labelJson label).asText = label := by
  rw [labelJson]
  split
  · next empty => exact (String.isEmpty_iff.mp empty).symm
  · rfl

/-- Lines that a block of a result stands for: one with an empty kind, and one for each of its rows. -/
def blockLines (function block : Json) : List (List String) :=
  let labels := [(block.field "primary").asText, (block.field "secondary").asText]
  let start := [(function.field "primary").asText, (function.field "secondary").asText] ++ labels ++
    [(block.field "status").asText]
  (start ++ [""] ++ labels) ::
    (block.field "rows").items.map fun row => start ++ row.items.map asText

/-- Lines that a result of two programs stands for, in the order of its functions and their blocks. -/
def resultLines (result : Json) : List (List String) :=
  (result.field "functions").items.flatMap fun function =>
    (function.field "blocks").items.flatMap (blockLines function)

end Json

theorem BlockDiff.blockLines_toJson (diff : FunctionDiff Float) (block : BlockDiff Float) :
    Json.blockLines diff.toJson block.toJson =
      block.csvLines [diff.primaryName, diff.secondaryName] := by
  have primary : (block.toJson.field "primary").asText = block.primaryLabel :=
    Json.asText_labelJson _
  have secondary : (block.toJson.field "secondary").asText = block.secondaryLabel :=
    Json.asText_labelJson _
  have status : (block.toJson.field "status").asText = block.status.name := rfl
  have rows : (block.toJson.field "rows").items = block.rows.map DiffRow.toJson := rfl
  have names : [(diff.toJson.field "primary").asText, (diff.toJson.field "secondary").asText] =
      [diff.primaryName, diff.secondaryName] := rfl
  rw [Json.blockLines, csvLines, names, primary, secondary, status, rows, List.map_map]
  rfl

theorem ProgramDiff.resultLines_toJson (diff : ProgramDiff Float) :
    diff.toJson.resultLines = diff.csvLines := by
  have functions : (diff.toJson.field "functions").items = diff.functions.map FunctionDiff.toJson := rfl
  have blocks (function : FunctionDiff Float) :
      (function.toJson.field "blocks").items = function.blocks.map BlockDiff.toJson := rfl
  simp only [Json.resultLines, csvLines, functions, blocks, List.flatMap_map,
    BlockDiff.blockLines_toJson]

/-- Comma separated values tell the rows that the JSON value of a result holds. -/
theorem ProgramDiff.toCsv_read (diff : ProgramDiff Float) (returns : Bool) :
    Text.Csv.read returns diff.toCsv = some (csvHeader :: diff.toJson.resultLines) := by
  rw [toCsv, Text.Csv.read_csv, resultLines_toJson]

end FlowAlign
