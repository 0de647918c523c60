import FlowAlign.Align.Alignment
import FlowAlign.Edit.Script
import FlowAlign.Position

/-!
Side by side rows of aligned blocks. The rows of a pair follow the edit script of its tokens; a
block without counterpart lists its instructions on one side.
-/

namespace FlowAlign

/-- One row: the operation, none for the header of a block, and the texts of both sides. -/
structure DiffRow where
  kind : Option EditOp
  primary : String
  secondary : String
  deriving DecidableEq

structure BlockDiff (α : Type) where
  entry : Entry α
  primaryLabel : String
  secondaryLabel : String
  rows : List DiffRow

namespace BlockDiff

variable {α : Type}

def textsOf (graph : FlowGraph) (id : Option Int) : Except Fault (List String) :=
  match id with
  | none => .ok []
  | some id => Position.pick graph.display.texts id

def labelOf (graph : FlowGraph) (id : Option Int) : Except Fault String :=
  match id with
  | none => .ok ""
  | some id => Position.pick graph.display.labels id

def tokensOf (graph : FlowGraph) (id : Option Int) : Except Fault (List Token) :=
  match id with
  | none => .error (.data .wrongType)
  | some id => (Position.pick graph.blocks id).map Block.tokens

/-- Text at a position of a script, empty when the side takes no part. -/
def textAt (texts : List String) (position : Option Nat) : Except Fault String :=
  match position with
  | none => .ok ""
  | some position => Position.pick texts position

def scriptRows (primary secondary : List String) (script : List Edit.Step) :
    Except Fault (List DiffRow) :=
  script.mapM fun step => do
    return { kind := some step.op
             primary := ← textAt primary step.primary?
             secondary := ← textAt secondary step.secondary? }

def rowsOf (alignment : Alignment α) (entry : Entry α) (primary secondary : List String) :
    Except Fault (List DiffRow) :=
  match entry.status with
  | .deleted => .ok (primary.map fun text =>
      { kind := some .delete, primary := text, secondary := "" })
  | .inserted => .ok (secondary.map fun text =>
      { kind := some .insert, primary := "", secondary := text })
  | _ => do
      let first ← tokensOf alignment.primary entry.primary
      let second ← tokensOf alignment.secondary entry.secondary
      scriptRows primary secondary (Edit.script (first.map Token.key) (second.map Token.key))

def ofEntry (alignment : Alignment α) (entry : Entry α) : Except Fault (BlockDiff α) := do
  let primary ← textsOf alignment.primary entry.primary
  let secondary ← textsOf alignment.secondary entry.secondary
  let rows ← rowsOf alignment entry primary secondary
  return { entry := entry
           primaryLabel := ← labelOf alignment.primary entry.primary
           secondaryLabel := ← labelOf alignment.secondary entry.secondary
           rows := rows }

def status (block : BlockDiff α) : BlockStatus :=
  block.entry.status

def header (block : BlockDiff α) : DiffRow :=
  { kind := none, primary := block.primaryLabel, secondary := block.secondaryLabel }

def changes (block : BlockDiff α) : Nat :=
  block.rows.countP fun row => row.kind ≠ some .keep

def shownLabel (label : String) : String :=
  if label.isEmpty then "-" else label

def describe (block : BlockDiff α) : String :=
  let primary := shownLabel block.primaryLabel
  let secondary := shownLabel block.secondaryLabel
  s!"<BlockDiff {primary} / {secondary}: {block.status.name}>"

end BlockDiff

end FlowAlign
