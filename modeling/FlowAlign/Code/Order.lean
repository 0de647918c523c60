import FlowAlign.Code.Block
import FlowAlign.Graph.Search

/-!
Linear order of basic blocks: the reverse postorder of a depth-first search from the entry, in which
the exits of a block are visited by kind.
-/

namespace FlowAlign.Code

inductive OrderFault where
  | noEntry
  | unknownTarget (address : Int)
  deriving DecidableEq

def lastIndex? (value : Int) : List Int → Option Nat
  | [] => none
  | first :: rest =>
      match lastIndex? value rest with
      | some index => some (index + 1)
      | none => if first = value then some 0 else none

/-- Position of the block at an address; of several the last one counts. -/
def position? (blocks : List CodeBlock) (address : Int) : Option Nat :=
  lastIndex? address (blocks.map CodeBlock.address)

def edgeOf? (blocks : List CodeBlock) (source : Nat) (exit : Exit) : Except OrderFault Edge :=
  match position? blocks exit.target with
  | some target =>
      .ok { source := source, target := target, kind := exit.kind, value := exit.value }
  | none => .error (.unknownTarget exit.target)

/-- Successors of a block in visiting order, each once. -/
def orderedSuccessors (edges : List Edge) : List Nat :=
  ((Edge.sort edges).map fun edge => edge.target.toNat).eraseDups

def successorsFrom (blocks : List CodeBlock) : Nat → List CodeBlock → Except OrderFault (List (List Nat))
  | _, [] => .ok []
  | position, block :: rest => do
      let edges ← block.exits.mapM (edgeOf? blocks position)
      let others ← successorsFrom blocks (position + 1) rest
      return orderedSuccessors edges :: others

/-- Positions of the blocks reachable from the entry, in linear order. The last visited successor
comes first in reverse postorder, so the successors are searched from the last one on. -/
def linearize (blocks : List CodeBlock) : Except OrderFault (List Nat) := do
  let successors ← successorsFrom blocks 0 blocks
  if blocks.isEmpty then throw .noEntry
  return Search.reversePostorder (fun position => (successors.getD position []).reverse)
    blocks.length 0

end FlowAlign.Code
