import FlowAlign.Edit.Distance
import FlowAlign.Fault
import FlowAlign.Quantity

/-!
Global alignment of two sequences under a cost for every pair and one cost for every gap. Gaps are
placed as late as possible, and deletions are listed before insertions.
-/

namespace FlowAlign

inductive Step where
  | insertion (secondary : Nat)
  | deletion (primary : Nat)
  | pairing (primary secondary : Nat)
  deriving DecidableEq

structure Grid (α : Type) where
  width : Nat
  rows : List (List α)

namespace Grid

variable {α β : Type}

def height (grid : Grid α) : Nat :=
  grid.rows.length

def get? (grid : Grid α) (row column : Nat) : Option α :=
  grid.rows[row]?.bind fun cells => cells[column]?

def get (grid : Grid α) (absent : α) (row column : Nat) : α :=
  (grid.get? row column).getD absent

def map (change : α → β) (grid : Grid α) : Grid β :=
  { width := grid.width, rows := grid.rows.map fun row => row.map change }

end Grid

namespace Align

variable {α : Type} [Quantity α]

def gaps (width : Nat) (gap : α) : List α :=
  (List.range (width + 1)).map fun count => Quantity.whole count * gap

/-- Cheapest way from the row above into every cell but the first. -/
def fromAbove (gap : α) : List α → List α → List α
  | cost :: costs, diagonal :: above :: row =>
      Quantity.least (above + gap) (diagonal + cost) :: fromAbove gap costs (above :: row)
  | _, _ => []

/-- Adds the cheapest insertions to the candidates of a row. -/
def spread (width : Nat) (gap : α) (candidates : List α) : List α :=
  match List.zipWith (· - ·) candidates (gaps width gap) with
  | [] => []
  | first :: rest =>
      List.zipWith (· + ·) (gaps width gap) (runningLeast Quantity.least first rest)

def nextRow (width : Nat) (gap : α) (index : Nat) (costs row : List α) : List α :=
  spread width gap (Quantity.whole index * gap :: fromAbove gap costs row)

def rowsFrom (width : Nat) (gap : α) : Nat → List α → List (List α) → List (List α)
  | _, row, [] => [row]
  | index, row, costs :: rest =>
      row :: rowsFrom width gap (index + 1) (nextRow width gap (index + 1) costs row) rest

def table (costs : Grid α) (gap : α) : Grid α :=
  { width := costs.width + 1
    rows := rowsFrom costs.width gap 0 (gaps costs.width gap) costs.rows }

/-- Traces an alignment back from a cell, in front of the entries found so far. The first argument
bounds the number of entries. -/
def trace (costs : Grid α) (gap : α) (dist : Grid α) :
    Nat → Nat → Nat → List Step → Except AlignmentFault (List Step)
  | 0, _, _, found => .ok found
  | fuel + 1, row, column, found =>
      let here := dist.get (Quantity.whole 0) row column
      let left := dist.get (Quantity.whole 0) row (column - 1)
      let above := dist.get (Quantity.whole 0) (row - 1) column
      let diagonal := dist.get (Quantity.whole 0) (row - 1) (column - 1)
      let cost := costs.get (Quantity.whole 0) (row - 1) (column - 1)
      if row = 0 ∧ column = 0 then .ok found
      else if 0 < column ∧ Quantity.near (here - left) gap then
        trace costs gap dist fuel row (column - 1) (.insertion (column - 1) :: found)
      else if 0 < row ∧ Quantity.near (here - above) gap then
        trace costs gap dist fuel (row - 1) column (.deletion (row - 1) :: found)
      else if 0 < row ∧ 0 < column ∧ Quantity.near (here - diagonal) cost then
        trace costs gap dist fuel (row - 1) (column - 1) (.pairing (row - 1) (column - 1) :: found)
      else .error (.inconsistentCell row column)

/-- Cheapest alignment of two sequences that never crosses, and its cost. -/
def globalAlignment (costs : Grid α) (gap : α) : Except AlignmentFault (List Step × α) := do
  let dist := table costs gap
  let found ← trace costs gap dist (costs.height + costs.width) costs.height costs.width []
  return (found, dist.get (Quantity.whole 0) costs.height costs.width)

end Align

end FlowAlign
