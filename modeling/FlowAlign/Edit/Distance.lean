/-!
Edit distance of two sequences, row by row. A row first takes the cheaper of deletion and
substitution in every cell, then spreads insertions along the row as a running minimum.
-/

namespace FlowAlign

def runningLeast {α : Type} (least : α → α → α) : α → List α → List α
  | best, [] => [best]
  | best, next :: rest => best :: runningLeast least (least best next) rest

namespace Edit

variable {β : Type} [DecidableEq β]

/-- The numbers from zero to a width: the row of the empty sequence. -/
def ramp (width : Nat) : List Int :=
  (List.range (width + 1)).map Int.ofNat

def fromAbove (symbol : β) : List β → List Int → List Int
  | other :: others, diagonal :: above :: row =>
      min (above + 1) (diagonal + if other = symbol then 0 else 1) ::
        fromAbove symbol others (above :: row)
  | _, _ => []

def spread (width : Nat) (candidates : List Int) : List Int :=
  match List.zipWith (· - ·) candidates (ramp width) with
  | [] => []
  | first :: rest => List.zipWith (· + ·) (ramp width) (runningLeast min first rest)

def nextRow (index : Nat) (symbol : β) (secondary : List β) (row : List Int) : List Int :=
  spread secondary.length (index :: fromAbove symbol secondary row)

def rowsFrom (secondary : List β) : Nat → List Int → List β → List (List Int)
  | _, row, [] => [row]
  | index, row, symbol :: rest =>
      row :: rowsFrom secondary (index + 1) (nextRow (index + 1) symbol secondary row) rest

/-- Rows of the distance table, from that of the empty beginning of the first sequence on. -/
def rows (primary secondary : List β) : List (List Int) :=
  rowsFrom secondary 0 (ramp secondary.length) primary

def distance (primary secondary : List β) : Nat :=
  if primary.isEmpty || secondary.isEmpty then max primary.length secondary.length
  else (((rows primary secondary).getLastD []).getLastD 0).toNat

end Edit

end FlowAlign
