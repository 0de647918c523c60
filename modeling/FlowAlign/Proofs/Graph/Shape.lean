import FlowAlign.Graph.Check

/-!
The shape of a graph: what is left when literals are reduced to their keys and everything that is only
displayed is left aside. Two graphs have equal blocks exactly when they have the same shape.
-/

namespace FlowAlign

/-- What two blocks have in common exactly when they are structurally equal. -/
structure Block.Shape where
  id : Int
  tokens : List Token.Key
  edges : List Edge
  deriving DecidableEq

def Block.shape (block : Block) : Block.Shape :=
  { id := block.id, tokens := block.tokens.map Token.key, edges := block.edges }

namespace FlowGraph

def shape (graph : FlowGraph) : List Block.Shape :=
  graph.blocks.map Block.shape

/-- What depends on the shape of a block is the same along blocks of the same shapes. -/
theorem map_eq_of_shape {γ : Type} {view : Block → γ}
    (factors : ∀ first second : Block, first.shape = second.shape → view first = view second) :
    ∀ {blocks others : List Block}, blocks.map Block.shape = others.map Block.shape →
      blocks.map view = others.map view := by
  intro blocks
  induction blocks with
  | nil =>
      intro others same
      rw [List.map_nil] at same
      rw [List.map_eq_nil_iff.mp same.symm]
  | cons block rest ih =>
      intro others same
      cases others with
      | nil => simp at same
      | cons other others =>
          simp only [List.map_cons, List.cons.injEq] at same ⊢
          exact ⟨factors block other same.1, ih same.2⟩

variable {graph other : FlowGraph}

theorem size_eq_of_shape (same : graph.shape = other.shape) : graph.size = other.size := by
  have lengths := congrArg List.length same
  simpa [shape, size] using lengths

theorem edges_eq_of_shape (same : graph.shape = other.shape) : graph.edges = other.edges := by
  have edges : graph.blocks.map Block.edges = other.blocks.map Block.edges :=
    map_eq_of_shape (fun _ _ equal => congrArg Block.Shape.edges equal) same
  simp only [FlowGraph.edges, List.flatMap_def, edges]

theorem ids_eq_of_shape (same : graph.shape = other.shape) : graph.ids = other.ids := by
  rw [ids, ids, size_eq_of_shape same]

theorem successors_eq_of_shape (same : graph.shape = other.shape) :
    graph.successors = other.successors := by
  funext id
  rw [successors, successors, edges_eq_of_shape same]

theorem predecessors_eq_of_shape (same : graph.shape = other.shape) :
    graph.predecessors = other.predecessors := by
  funext id
  rw [predecessors, predecessors, edges_eq_of_shape same]

end FlowGraph

end FlowAlign
