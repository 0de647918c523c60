import FlowAlign.Graph.Basic
import FlowAlign.Graph.Search

/-! Well-formedness of a graph: ids are positions, edges stay inside, every block is reachable. -/

namespace FlowAlign

inductive GraphFault where
  | noInstruction (function : String)
  | noBlock (function : String)
  | misplaced (function : String) (id : Int) (position : Nat)
  | dangling (function : String) (edge : Edge)
  | outOfSync (function : String)
  | unreachable (function : String) (count : Nat)
  deriving DecidableEq

def GraphFault.message : GraphFault → String
  | noInstruction function => s!"Function `{function}` has no instruction"
  | noBlock function => s!"Function `{function}` has no block"
  | misplaced function id position =>
      s!"Function `{function}`: block {id} stored at position {position}"
  | dangling function edge => s!"Function `{function}`: dangling edge {edge.describe}"
  | outOfSync function => s!"Function `{function}`: side table out of sync"
  | unreachable function count =>
      s!"Function `{function}` has {count} block(s) unreachable from the entry"

namespace FlowGraph

def reachable (graph : FlowGraph) : List Int :=
  Search.reversePostorder graph.successors graph.size 0

def isSound (graph : FlowGraph) (position : Nat) (edge : Edge) : Bool :=
  decide (edge.source = position) && decide (0 ≤ edge.target) &&
    decide (edge.target < graph.size)

def blockFault? (graph : FlowGraph) : Nat → List Block → Option GraphFault
  | _, [] => none
  | position, block :: rest =>
      if block.id ≠ position then some (.misplaced graph.name block.id position)
      else match block.edges.find? fun edge => !graph.isSound position edge with
        | some edge => some (.dangling graph.name edge)
        | none => blockFault? graph (position + 1) rest

def check (graph : FlowGraph) : Except GraphFault Unit :=
  if graph.blocks.isEmpty then .error (.noBlock graph.name)
  else match graph.blockFault? 0 graph.blocks with
    | some fault => .error fault
    | none =>
        if graph.display.labels.length ≠ graph.size then .error (.outOfSync graph.name)
        else if graph.reachable.length ≠ graph.size then
          .error (.unreachable graph.name (graph.size - graph.reachable.length))
        else .ok ()

end FlowGraph

end FlowAlign
