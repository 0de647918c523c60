import FlowAlign.Align.Global
import FlowAlign.Align.Options
import FlowAlign.Edit.Word
import FlowAlign.Measure
import FlowAlign.Position

/-!
Costs of pairing blocks. The base cost is the dissimilarity; the refined cost rewards pairs whose
neighbours are paired with each other and penalizes pairs whose outgoing edges differ in kind.
-/

namespace FlowAlign.Align

variable {α : Type} [Quantity α]

/-- Jaccard distance of two sets given by lists: one minus the share of common members. -/
def jaccard {κ : Type} [BEq κ] (first second : List κ) : α :=
  let union := (first ++ second).eraseDups
  let common := first.eraseDups.filter second.contains
  if union.isEmpty then Quantity.whole 0
  else Quantity.whole 1 - Quantity.whole common.length / Quantity.whole union.length

structure PairCost (α : Type) where
  similarity : α
  eligible : Bool
  base : α
  kindDistance : α

abbrev Costs (α : Type) := Grid (PairCost α)

namespace Costs

variable {α : Type}

def similarity (costs : Costs α) : Grid α := costs.map PairCost.similarity

def eligible (costs : Costs α) : Grid Bool := costs.map PairCost.eligible

def base (costs : Costs α) : Grid α := costs.map PairCost.base

def kindDistance (costs : Costs α) : Grid α := costs.map PairCost.kindDistance

end Costs

def baseCost (options : Options α) (similarity : α) : α :=
  if options.isEligible similarity then Quantity.whole 1 - similarity else options.ineligibleCost

def pairCost (options : Options α) (first second : Block) (similarity : α) : PairCost α :=
  { similarity := similarity
    eligible := options.isEligible similarity
    base := baseCost options similarity
    kindDistance := jaccard first.edgeKinds second.edgeKinds }

/-- Costs of all pairs of blocks of two graphs, which must not both be empty. -/
def prepare (options : Options α) (measure : Measure α) (primary secondary : FlowGraph) :
    Except Fault (Measure α × Costs α) :=
  if primary.blocks.isEmpty && secondary.blocks.isEmpty then .error (.data .outOfRange)
  else
    let (measure, similarities) := measure.matrix primary secondary
    .ok (measure,
      { width := secondary.size
        rows := List.zipWith (fun first row => List.zipWith (pairCost options first)
          secondary.blocks row) primary.blocks similarities })

structure Neighbours where
  next : List Nat
  previous : List Nat
  deriving DecidableEq

def neighbours (graph : FlowGraph) : Except Fault (List Neighbours) :=
  graph.ids.mapM fun id => do
    return { next := ← (graph.successors id).mapM (Position.resolve graph.size)
             previous := ← (graph.predecessors id).mapM (Position.resolve graph.size) }

/-- Records one entry of an alignment: the counterpart of a block of the first graph. -/
def record (partners : List (Option Nat)) : Step → List (Option Nat)
  | .insertion _ => partners
  | .deletion _ => partners
  | .pairing row column => partners.set row (some column)

def partnersOf (size : Nat) (alignment : List Step) : List (Option Nat) :=
  alignment.foldl record (List.replicate size none)

/-- Records pairs of positions given by any integers. A negative position counts from the end in the
first graph, and stands for no counterpart in the second, where positions are words. -/
def partnersFrom (partners : List (Option Nat)) :
    List (Int × Int) → Except Fault (List (Option Nat))
  | [] => .ok partners
  | (primary, secondary) :: rest => do
      let position ← Position.resolve partners.length primary
      if !Edit.isWord secondary then throw (.data .tooLarge)
      let partner := if secondary < 0 then none else some secondary.toNat
      partnersFrom (partners.set position partner) rest

/-- The counterparts of the blocks around a block, as far as they have one. -/
def Neighbours.counterparts (around : Neighbours) (partners : List (Option Nat)) : Neighbours :=
  { next := around.next.filterMap fun position => partners.getD position none
    previous := around.previous.filterMap fun position => partners.getD position none }

def Neighbours.areBelow (around : Neighbours) (bound : Nat) : Bool :=
  (around.next ++ around.previous).all fun position => decide (position < bound)

def common (first second : List Nat) : Nat :=
  second.foldr (fun position total => first.count position + total) 0

/-- Share of the neighbour pairs that are aligned, one when there are no neighbours. -/
def share (aligned total : Nat) : α :=
  if 0 < total then Quantity.whole aligned / Quantity.whole total else Quantity.whole 1

/-- Agreement of what is around two blocks, given the counterparts of what is around the first. -/
def agreement (first counterparts second : Neighbours) : α :=
  share (common counterparts.next second.next + common counterparts.previous second.previous)
    (max first.next.length second.next.length + max first.previous.length second.previous.length)

structure Topology where
  /-- What is around the blocks of the first graph, with the counterparts of it. -/
  primary : List (Neighbours × Neighbours)
  secondary : List Neighbours

/-- What is around the blocks of both graphs; counterparts must be blocks of the second one. -/
def topology (primary secondary : FlowGraph) (partners : List (Option Nat)) :
    Except Fault Topology := do
  let around := (← neighbours primary).map fun near => (near, near.counterparts partners)
  if !around.all fun (_, counterparts) => counterparts.areBelow secondary.size then
    throw (.data .outOfRange)
  return { primary := around, secondary := ← neighbours secondary }

/-- Cost of a pair of blocks refined by the agreement of what is around them. -/
def refinedCost (options : Options α) (agreement : α) (cost : PairCost α) : α :=
  if cost.eligible then
    cost.base - options.topologyWeight * agreement + options.edgePenalty * cost.kindDistance
  else options.ineligibleCost

def refinedCosts (options : Options α) (costs : Costs α) (primary secondary : FlowGraph)
    (partners : List (Option Nat)) : Except Fault (Grid α) := do
  let shape ← topology primary secondary partners
  return { width := costs.width
           rows := List.zipWith (fun (first, counterparts) row => List.zipWith
             (fun second cost => refinedCost options (agreement first counterparts second) cost)
             shape.secondary row) shape.primary costs.rows }

end FlowAlign.Align
