import FlowAlign.Report.Render

/-! Plain lines for the items given to a console. -/

namespace FlowAlign

def TableRow.line (row : TableRow) : String :=
  " | ".intercalate row.cells

def Item.lines : Item → List String
  | .rule text _ => ["---- " ++ text ++ " ----"]
  | .line text _ => [text]
  | .table title _ columns rows =>
      title :: " | ".intercalate columns :: rows.map TableRow.line

def Output.lines (output : Output) : String :=
  output.text ++ String.join ((output.items.flatMap Item.lines).map (· ++ "\n"))

end FlowAlign
