import FlowAlign.Report.Csv

/-!
Printed form of a result: a rule for every function, its warnings and counts, and a table for every
group of blocks that differ. Layout and colours are left to the console. Characters that would move
the cursor are not printed.
-/

namespace FlowAlign

structure TableRow where
  cells : List String
  style : String := ""
  endSection : Bool := false

inductive Item where
  | rule (text style : String)
  | line (text style : String)
  | table (title style : String) (columns : List String) (rows : List TableRow)

namespace Render

/-- Bell, backspace, vertical tab, form feed and carriage return. -/
def isCursorControl (char : Char) : Bool :=
  [7, 8, 11, 12, 13].contains char.toNat

def printed (text : String) : String :=
  String.ofList (text.toList.filter fun char => !isCursorControl char)

def ruled (text style : String) : Item :=
  .rule (printed text) style

def lined (text style : String) : Item :=
  .line (printed text) style

def statusOrder : List BlockStatus := [.modified, .inserted, .deleted, .matched]

def statusStyle : BlockStatus → String
  | .matched => "dim"
  | .modified => "yellow"
  | .inserted => "green"
  | .deleted => "red"

def rowMark : Option EditOp → String × String
  | some .keep => (" ", "")
  | some .substitute => ("~", "yellow")
  | some .insert => ("+", "green")
  | some .delete => ("-", "red")
  | none => ("", "")

def tableRow (row : DiffRow) : TableRow :=
  let (mark, style) := rowMark row.kind
  { cells := [mark, printed row.primary, printed row.secondary], style := style }

def closeSection : List TableRow → List TableRow
  | [] => []
  | [last] => [{ last with endSection := true }]
  | row :: rest => row :: closeSection rest

variable {α : Type} [Quantity α]

def blockRows (block : BlockDiff α) : List TableRow :=
  closeSection ((block.header :: block.rows).map tableRow)

def groupTable (diff : FunctionDiff α) (status : BlockStatus) : Item :=
  .table (status.name ++ " blocks") (statusStyle status) ["", diff.primaryName, diff.secondaryName]
    ((diff.group status).flatMap blockRows)

/-- A table for a group, or a list of labels for the blocks that match. -/
def groupItems (diff : FunctionDiff α) (status : BlockStatus) : List Item :=
  let blocks := diff.group status
  if blocks.isEmpty then []
  else if status = .matched then
    let labels := ", ".intercalate (blocks.map fun block =>
      block.primaryLabel ++ "=" ++ block.secondaryLabel)
    [lined ("matched blocks: " ++ labels) (statusStyle status)]
  else [groupTable diff status]

def functionItems (diff : FunctionDiff α) : List Item :=
  let title := ruled (diff.primaryName ++ " / " ++ diff.secondaryName) "bold"
  let warnings := diff.warnings.map fun warning => lined ("warning: " ++ warning) "yellow"
  let body := if diff.status = .error then
      [lined ("internal error: " ++ diff.error.getD "None") "bold red"]
    else
      let counts := ", ".intercalate (BlockStatus.all.map fun status =>
        toString (diff.count status) ++ " " ++ status.name)
      lined (diff.status.name ++ ": " ++ counts) "" :: statusOrder.flatMap (groupItems diff)
  title :: warnings ++ body

def nameItems (title style mark : String) (names : List String) : List Item :=
  if names.isEmpty then []
  else ruled title style :: names.map fun name => lined (mark ++ " " ++ name) style

def items (diff : ProgramDiff α) : List Item :=
  diff.functions.flatMap functionItems ++
    nameItems "functions only in the primary file" "red" "-" diff.removed ++
    nameItems "functions only in the secondary file" "green" "+" diff.added ++
    (if diff.hasDiff then [] else [lined "No difference found" "bold green"])

end Render

structure Output where
  items : List Item := []
  text : String := ""

inductive OutputFormat where
  | text
  | json
  | csv
  deriving DecidableEq

namespace OutputFormat

def name : OutputFormat → String
  | text => "text"
  | json => "json"
  | csv => "csv"

def ofName? (name : String) : Option OutputFormat :=
  [text, json, csv].find? fun format => format.name == name

def ofName (name : String) : Except Fault OutputFormat :=
  match ofName? name with
  | some format => .ok format
  | none => .error (.request (.unknownOutput name))

end OutputFormat

def ProgramDiff.render (diff : ProgramDiff Float) : OutputFormat → Output
  | .text => { items := Render.items diff }
  | .json => { text := diff.toJson.indented 0 ++ "\n" }
  | .csv => { text := diff.toCsv }

end FlowAlign
