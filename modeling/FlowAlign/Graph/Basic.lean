import FlowAlign.Token

/-!
Canonical control flow graphs. Blocks are numbered by their position, edges carry their kind, and
everything that is only displayed stands aside in a table.
-/

namespace FlowAlign

/-- Kind of an edge. The order is the one in which edges are visited. -/
inductive EdgeKind where
  | fallthrough
  | branchTrue
  | branchFalse
  | unconditional
  /-- One case of a multi-way branch; the default case has no value. -/
  | switchCase
  | indirect
  deriving DecidableEq

namespace EdgeKind

def all : List EdgeKind :=
  [fallthrough, branchTrue, branchFalse, unconditional, switchCase, indirect]

def rank : EdgeKind → Nat
  | fallthrough => 0
  | branchTrue => 1
  | branchFalse => 2
  | unconditional => 3
  | switchCase => 4
  | indirect => 5

def name : EdgeKind → String
  | fallthrough => "fallthrough"
  | branchTrue => "branch_true"
  | branchFalse => "branch_false"
  | unconditional => "unconditional"
  | switchCase => "switch_case"
  | indirect => "indirect"

def ofName? (name : String) : Option EdgeKind :=
  all.find? fun kind => kind.name == name

end EdgeKind

/-- An edge between two blocks. In a checked graph both ends are positions of blocks. -/
structure Edge where
  source : Int
  target : Int
  kind : EdgeKind
  value : Option Int := none
  deriving DecidableEq

namespace Edge

/-- Whether a case value comes no later than another: ascending, the default last. -/
def caseLe : Option Int → Option Int → Bool
  | _, none => true
  | none, some _ => false
  | some first, some second => decide (first ≤ second)

/-- Visiting order: by kind, the cases of a switch by value. -/
def le (first second : Edge) : Bool :=
  if first.kind = second.kind then
    if first.kind = .switchCase then caseLe first.value second.value else true
  else decide (first.kind.rank ≤ second.kind.rank)

/-- Edges in visiting order; equals keep their order. -/
def sort (edges : List Edge) : List Edge :=
  edges.mergeSort le

def label (edge : Edge) : String :=
  if edge.kind = .switchCase then
    match edge.value with
    | none => "case default"
    | some value => "case " ++ toString value
  else edge.kind.name

def describe (edge : Edge) : String :=
  let value := match edge.value with
    | none => "None"
    | some value => toString value
  s!"Edge(src={edge.source}, dst={edge.target}, kind=<EdgeKind.{edge.kind.name}: {edge.kind.rank}>, "
    ++ s!"value={value})"

end Edge

structure Block where
  id : Int
  tokens : List Token
  edges : List Edge
  deriving DecidableEq

namespace Block

/-- The kinds of the outgoing edges, with the case values of switches, each once. -/
def edgeKinds (block : Block) : List (EdgeKind × Option Int) :=
  (block.edges.map fun edge => (edge.kind, edge.value)).eraseDups

end Block

structure SideTable where
  labels : List String
  texts : List (List String)
  addresses : List (List Int)
  deriving DecidableEq

/-- Control flow graph of a function. The first block is the entry. -/
structure FlowGraph where
  name : String
  blocks : List Block
  display : SideTable
  warnings : List String := []
  deriving DecidableEq

namespace FlowGraph

def size (graph : FlowGraph) : Nat :=
  graph.blocks.length

/-- Ids of the blocks of a checked graph: their positions. -/
def ids (graph : FlowGraph) : List Int :=
  (List.range graph.size).map Int.ofNat

def edges (graph : FlowGraph) : List Edge :=
  graph.blocks.flatMap Block.edges

/-- Ids reached by one edge from a block, each once. -/
def successors (graph : FlowGraph) (id : Int) : List Int :=
  ((graph.edges.filter fun edge => edge.source = id).map Edge.target).eraseDups

def predecessors (graph : FlowGraph) (id : Int) : List Int :=
  ((graph.edges.filter fun edge => edge.target = id).map Edge.source).eraseDups

def tokenCount (graph : FlowGraph) : Nat :=
  (graph.blocks.flatMap Block.tokens).length

def edgeCount (graph : FlowGraph) : Nat :=
  graph.edges.eraseDups.length

end FlowGraph

end FlowAlign
