import FlowAlign.Edit.Distance

/-!
Edit script of two sequences, traced back through the distance table. Pairing symbols wins a tie,
and deletions are listed before the insertions next to them.
-/

namespace FlowAlign

inductive EditOp where
  | keep
  | substitute
  | insert
  | delete
  deriving DecidableEq

namespace EditOp

def name : EditOp → String
  | keep => "keep"
  | substitute => "substitute"
  | insert => "insert"
  | delete => "delete"

end EditOp

namespace Edit

/-- One entry of a script, with the positions it uses on either side. -/
inductive Step where
  | keep (primary secondary : Nat)
  | substitute (primary secondary : Nat)
  | insert (secondary : Nat)
  | delete (primary : Nat)
  deriving DecidableEq

namespace Step

def op : Step → EditOp
  | keep _ _ => .keep
  | substitute _ _ => .substitute
  | insert _ => .insert
  | delete _ => .delete

def primary? : Step → Option Nat
  | keep primary _ => some primary
  | substitute primary _ => some primary
  | insert _ => none
  | delete primary => some primary

def secondary? : Step → Option Nat
  | keep _ secondary => some secondary
  | substitute _ secondary => some secondary
  | insert secondary => some secondary
  | delete _ => none

end Step

variable {β : Type} [DecidableEq β]

def cell (table : List (List Int)) (row column : Nat) : Int :=
  (table.getD row []).getD column 0

/-- Traces a script back from a cell, in front of the entries found so far. The first argument
bounds the number of entries. -/
def trace (table : List (List Int)) (primary secondary : List β) :
    Nat → Nat → Nat → List Step → List Step
  | 0, _, _, script => script
  | _ + 1, 0, 0, script => script
  | fuel + 1, 0, column + 1, script =>
      trace table primary secondary fuel 0 column (.insert column :: script)
  | fuel + 1, row + 1, 0, script =>
      trace table primary secondary fuel row 0 (.delete row :: script)
  | fuel + 1, row + 1, column + 1, script =>
      let equal := primary[row]? = secondary[column]?
      let here := cell table (row + 1) (column + 1)
      if here = cell table row column + if equal then 0 else 1 then
        trace table primary secondary fuel row column
          ((if equal then .keep row column else .substitute row column) :: script)
      else if here = cell table (row + 1) column + 1 then
        trace table primary secondary fuel (row + 1) column (.insert column :: script)
      else trace table primary secondary fuel row (column + 1) (.delete row :: script)

def script (primary secondary : List β) : List Step :=
  trace (rows primary secondary) primary secondary (primary.length + secondary.length)
    primary.length secondary.length []

end Edit

end FlowAlign
