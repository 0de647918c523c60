/-!
Depth-first search. Vertices are listed when they are finished, the last one first, which is the
reverse postorder.
-/

namespace FlowAlign

/-- Vertices met so far, and those finished so far with the last one first. -/
structure Search (ν : Type) where
  seen : List ν
  finished : List ν

namespace Search

variable {ν : Type} [DecidableEq ν]

/-- Searches from a vertex. The first argument bounds the depth; the number of vertices suffices. -/
def visit (next : ν → List ν) : Nat → Search ν → ν → Search ν
  | 0, state, _ => state
  | depth + 1, state, vertex =>
      if vertex ∈ state.seen then state
      else
        let inner := (next vertex).foldl (visit next depth)
          { state with seen := vertex :: state.seen }
        { inner with finished := vertex :: inner.finished }

/-- Reverse postorder of the vertices reachable from a start, successors in the given order. -/
def reversePostorder (next : ν → List ν) (bound : Nat) (start : ν) : List ν :=
  (visit next bound { seen := [], finished := [] } start).finished

end Search

end FlowAlign
