import FlowAlign.Fault
import FlowAlign.Graph.Basic
import FlowAlign.Quantity

/-!
Alignments of the blocks of two graphs. A valid alignment has every block of both graphs in exactly
one entry, in the order of both.
-/

namespace FlowAlign

inductive BlockStatus where
  | matched
  | modified
  | inserted
  | deleted
  deriving DecidableEq

namespace BlockStatus

def all : List BlockStatus := [matched, modified, inserted, deleted]

def name : BlockStatus → String
  | matched => "matched"
  | modified => "modified"
  | inserted => "inserted"
  | deleted => "deleted"

def rank : BlockStatus → Nat
  | matched => 0
  | modified => 1
  | inserted => 2
  | deleted => 3

def ofName? (name : String) : Option BlockStatus :=
  all.find? fun status => status.name == name

def isGap : BlockStatus → Bool
  | inserted => true
  | deleted => true
  | _ => false

end BlockStatus

/-- One entry: the two blocks, either of which may be missing. -/
structure Entry (α : Type) where
  primary : Option Int
  secondary : Option Int
  status : BlockStatus
  similarity : α

namespace Entry

variable {α : Type}

def isGap (entry : Entry α) : Bool :=
  entry.primary.isNone || entry.secondary.isNone

def idText (id : Option Int) : String :=
  match id with
  | none => "None"
  | some value => toString value

def describe [Quantity α] (entry : Entry α) : String :=
  let primary := idText entry.primary
  let secondary := idText entry.secondary
  let similarity := Quantity.spell entry.similarity
  s!"AlignedPair(primary={primary}, secondary={secondary}, status=<BlockStatus." ++
    s!"{entry.status.name}: {entry.status.rank}>, similarity={similarity})"

end Entry

structure Alignment (α : Type) where
  primary : FlowGraph
  secondary : FlowGraph
  entries : List (Entry α)
  gapCost : α
  degraded : Bool := false

namespace Alignment

variable {α : Type} [Quantity α]

def entryCost (gap : α) (entry : Entry α) : α :=
  if entry.isGap then gap else Quantity.whole 1 - entry.similarity

/-- Dissimilarity of the pairs plus the cost of the gaps. -/
def cost (alignment : Alignment α) : α :=
  alignment.entries.foldl (fun total entry => total + entryCost alignment.gapCost entry)
    (Quantity.whole 0)

def naiveCost (alignment : Alignment α) : α :=
  alignment.gapCost * Quantity.whole (alignment.primary.size + alignment.secondary.size)

def count (alignment : Alignment α) (status : BlockStatus) : Nat :=
  alignment.entries.countP fun entry => entry.status = status

def isIdentical (alignment : Alignment α) : Bool :=
  alignment.entries.all fun entry => entry.status = .matched

/-- Entry of a block of the first graph; without an id, the first entry that has none. -/
def findPrimary? (alignment : Alignment α) (id : Option Int) : Option (Entry α) :=
  alignment.entries.find? fun entry => entry.primary = id

def findSecondary? (alignment : Alignment α) (id : Option Int) : Option (Entry α) :=
  alignment.entries.find? fun entry => entry.secondary = id

def primaryIds (alignment : Alignment α) : List Int :=
  alignment.entries.filterMap Entry.primary

def secondaryIds (alignment : Alignment α) : List Int :=
  alignment.entries.filterMap Entry.secondary

/-- Fault of one entry: both sides missing, or a status that contradicts the sides. -/
def entryFault? (entry : Entry α) : Option AlignmentFault :=
  if entry.primary.isNone && entry.secondary.isNone then some .emptyEntry
  else if entry.isGap ≠ entry.status.isGap then some (.inconsistentStatus entry.describe)
  else none

def validate (alignment : Alignment α) : Except AlignmentFault Unit :=
  if alignment.primaryIds ≠ alignment.primary.ids then
    .error (.uncovered alignment.primary.name "primary")
  else if alignment.secondaryIds ≠ alignment.secondary.ids then
    .error (.uncovered alignment.primary.name "secondary")
  else match alignment.entries.findSome? entryFault? with
    | some fault => .error fault
    | none => .ok ()

def describe (alignment : Alignment α) : String :=
  let counts := ", ".intercalate (BlockStatus.all.map fun status =>
    status.name ++ "=" ++ toString (alignment.count status))
  s!"<Alignment {alignment.primary.name} / {alignment.secondary.name}: {counts}>"

end Alignment

end FlowAlign
