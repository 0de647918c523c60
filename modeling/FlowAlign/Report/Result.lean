import FlowAlign.Report.Rows
import FlowAlign.Table

/-! Results of comparing two functions and two programs. -/

namespace FlowAlign

inductive FunctionStatus where
  | identical
  | changed
  | error
  deriving DecidableEq

def FunctionStatus.name : FunctionStatus → String
  | identical => "identical"
  | changed => "changed"
  | error => "error"

/-- Result for two functions. Without an alignment the comparison failed. -/
structure FunctionDiff (α : Type) where
  primaryName : String
  secondaryName : String
  alignment : Option (Alignment α)
  warnings : List String
  error : Option String
  blocks : List (BlockDiff α)

namespace FunctionDiff

variable {α : Type} [Quantity α]

def ofAlignment (primaryName secondaryName : String) (alignment : Alignment α)
    (warnings : List String) : Except Fault (FunctionDiff α) := do
  return { primaryName := primaryName
           secondaryName := secondaryName
           alignment := some alignment
           warnings := warnings
           error := none
           blocks := ← alignment.entries.mapM (BlockDiff.ofEntry alignment) }

def failed (primaryName secondaryName : String) (error : Option String) : FunctionDiff α :=
  { primaryName := primaryName
    secondaryName := secondaryName
    alignment := none
    warnings := []
    error := error
    blocks := [] }

def status (diff : FunctionDiff α) : FunctionStatus :=
  match diff.error, diff.alignment with
  | none, some alignment => if alignment.isIdentical then .identical else .changed
  | _, _ => .error

def degraded (diff : FunctionDiff α) : Bool :=
  diff.alignment.any Alignment.degraded

def hasDiff (diff : FunctionDiff α) : Bool :=
  diff.status ≠ .identical

def count (diff : FunctionDiff α) (status : BlockStatus) : Nat :=
  diff.blocks.countP fun block => block.status = status

def group (diff : FunctionDiff α) (status : BlockStatus) : List (BlockDiff α) :=
  diff.blocks.filter fun block => block.status = status

/-- Rows of the whole function: the header of every block, then its rows. -/
def rows (diff : FunctionDiff α) : List DiffRow :=
  diff.blocks.flatMap fun block => block.header :: block.rows

def describe (diff : FunctionDiff α) : String :=
  s!"<FunctionDiff {diff.primaryName} / {diff.secondaryName}: {diff.status.name}>"

end FunctionDiff

/-- Result for two programs: the compared functions and those found on one side only. -/
structure ProgramDiff (α : Type) where
  primaryName : String
  secondaryName : String
  functions : List (FunctionDiff α)
  added : List String
  removed : List String

namespace ProgramDiff

variable {α : Type} [Quantity α]

def sortNames (names : List String) : List String :=
  names.mergeSort Text.le

def make (primaryName secondaryName : String) (functions : List (FunctionDiff α))
    (added removed : List String) : ProgramDiff α :=
  { primaryName := primaryName
    secondaryName := secondaryName
    functions := functions
    added := sortNames added
    removed := sortNames removed }

def hasDiff (diff : ProgramDiff α) : Bool :=
  !diff.added.isEmpty || !diff.removed.isEmpty || diff.functions.any FunctionDiff.hasDiff

def errors (diff : ProgramDiff α) : List (FunctionDiff α) :=
  diff.functions.filter fun function => function.status = .error

/-- Rows of every compared pair by the names of the pair; of two results for one pair of names the
last one counts, at the place of the first. -/
def rows (diff : ProgramDiff α) : List ((String × String) × List DiffRow) :=
  Table.collect (diff.functions.map fun function =>
    ((function.primaryName, function.secondaryName), function.rows))

def describe (diff : ProgramDiff α) : String :=
  s!"<ProgramDiff {diff.primaryName} / {diff.secondaryName}: " ++
    s!"{diff.functions.length} functions, +{diff.added.length} -{diff.removed.length}>"

end ProgramDiff

end FlowAlign
