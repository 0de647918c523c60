import FlowAlign.Align.Alignment
import FlowAlign.Align.Costs
import FlowAlign.Align.Names
import FlowAlign.Logged

/-!
Block alignment of two graphs. A global alignment under the base costs is refined: costs are
adjusted to the current alignment and the alignment is computed again, until it is stable or a limit
is reached. Graphs above the block limit are aligned by name.
-/

namespace FlowAlign.Align

variable {α : Type} [Quantity α]

def isDegraded (options : Options α) (primary secondary : FlowGraph) : Bool :=
  decide (options.maxBlocks < max primary.size secondary.size)

def degradedWarning (options : Options α) (primary secondary : FlowGraph) : String :=
  s!"`{primary.name}` has {primary.size}/{secondary.size} blocks, above the limit of " ++
    s!"{options.maxBlocks}: blocks matched by name only (degraded precision)"

/-- A pair of graphs ready to be aligned; there are no costs when blocks are matched by name. -/
structure Matcher (α : Type) where
  options : Options α
  primary : FlowGraph
  secondary : FlowGraph
  measure : Measure α
  costs : Option (Costs α)
  warnings : List String

def process (options : Options α) (primary secondary : FlowGraph) :
    Logged Fault (Matcher α) := do
  if isDegraded options primary secondary then
    let message := degradedWarning options primary secondary
    Logged.note (.warning message)
    return { options := options, primary := primary, secondary := secondary
             measure := .empty, costs := none, warnings := [message] }
  else
    Logged.note (.debug (s!"Computing the similarity matrix of `{primary.name}` " ++
      s!"({primary.size}x{secondary.size} blocks)"))
    let (measure, costs) ← Logged.ofExcept (prepare options .empty primary secondary)
    return { options := options, primary := primary, secondary := secondary
             measure := measure, costs := some costs, warnings := [] }

structure Refinement where
  iterations : Nat
  stable : Bool
  result : Except Fault (List Step)

/-- One refinement: the alignment under the costs adjusted to the current one, and its cost. -/
def refineOnce (options : Options α) (costs : Costs α) (primary secondary : FlowGraph)
    (alignment : List Step) : Except Fault (List Step × α) := do
  let adjusted ← refinedCosts options costs primary secondary (partnersOf primary.size alignment)
  (globalAlignment adjusted options.gapCost).mapError Fault.alignment

/-- Whether a refinement leaves the alignment or its cost as they were. -/
def isStable (alignment refined : List Step) (previous : Option α) (cost : α) : Bool :=
  decide (refined = alignment) || previous.any fun before => Quantity.near cost before

/-- Refines an alignment until it is stable, at most as often as the first argument says. -/
def refine (step : List Step → Except Fault (List Step × α)) :
    Nat → Nat → List Step → Option α → Refinement
  | 0, count, alignment, _ => { iterations := count, stable := false, result := .ok alignment }
  | fuel + 1, count, alignment, previous =>
      match step alignment with
      | .error fault => { iterations := count, stable := false, result := .error fault }
      | .ok (refined, cost) =>
          if isStable alignment refined previous cost then
            { iterations := count + 1, stable := true, result := .ok refined }
          else refine step fuel (count + 1) refined (some cost)

def pairStatus (options : Options α) (first second : Block) (similarity : α) : BlockStatus :=
  let sameTokens := first.tokens.map Token.key = second.tokens.map Token.key
  let sameKinds := first.edgeKinds.all second.edgeKinds.contains &&
    second.edgeKinds.all first.edgeKinds.contains
  if options.isMatch similarity && sameTokens && sameKinds then .matched else .modified

/-- Similarity of a pair: from the table, or computed when there is none. -/
def pairSimilarity (matcher : Matcher α) (measure : Measure α) (row column : Nat)
    (first second : Block) : Measure α × α :=
  match matcher.costs with
  | some costs => (measure, (costs.get? row column).elim (Quantity.whole 0) PairCost.similarity)
  | none => measure.similarity first.tokens second.tokens

def classify (matcher : Matcher α) (measure : Measure α) :
    List Step → Except Fault (List (Entry α))
  | [] => .ok []
  | .insertion column :: rest => do
      let others ← classify matcher measure rest
      return { primary := none, secondary := some column, status := .inserted
               similarity := Quantity.whole 0 } :: others
  | .deletion row :: rest => do
      let others ← classify matcher measure rest
      return { primary := some row, secondary := none, status := .deleted
               similarity := Quantity.whole 0 } :: others
  | .pairing row column :: rest =>
      match matcher.primary.blocks[row]?, matcher.secondary.blocks[column]? with
      | some first, some second => do
          let (measure, similarity) := pairSimilarity matcher measure row column first second
          let others ← classify matcher measure rest
          return { primary := some row, secondary := some column
                   status := pairStatus matcher.options first second similarity
                   similarity := similarity } :: others
      | _, _ => .error (.data .outOfRange)

def conclude (matcher : Matcher α) (measure : Measure α) (steps : List Step) :
    Except Fault (Alignment α) := do
  let alignment : Alignment α :=
    { primary := matcher.primary
      secondary := matcher.secondary
      entries := ← classify matcher measure steps
      gapCost := matcher.options.gapCost
      degraded := isDegraded matcher.options matcher.primary matcher.secondary }
  (alignment.validate).mapError Fault.alignment
  return alignment

structure Run (α : Type) where
  iterations : Nat
  notes : List Note
  result : Except Fault (Alignment α)

def refinementNotes (limit : Int) (refinement : Refinement) : List Note :=
  match refinement.result with
  | .error _ => []
  | .ok _ =>
      if refinement.stable then
        [.debug s!"Alignment converged after {refinement.iterations} iterations"]
      else [.debug s!"Alignment did not converge after {limit} iterations"]

def computeFull (matcher : Matcher α) (costs : Costs α) : Run α :=
  match globalAlignment costs.base matcher.options.gapCost with
  | .error fault => { iterations := 0, notes := [], result := .error (.alignment fault) }
  | .ok (steps, _) =>
      if 1 < matcher.primary.size ∨ 1 < matcher.secondary.size then
        let refinement := refine
          (refineOnce matcher.options costs matcher.primary matcher.secondary)
          matcher.options.maxIterations.toNat 0 steps none
        { iterations := refinement.iterations
          notes := refinementNotes matcher.options.maxIterations refinement
          result := refinement.result.bind (conclude matcher matcher.measure) }
      else { iterations := 0, notes := [], result := conclude matcher matcher.measure steps }

def computeByName (matcher : Matcher α) : Run α :=
  { iterations := 0
    notes := []
    result := do
      let (measure, steps) ← nameAlignment matcher.options matcher.measure matcher.primary
        matcher.secondary
      conclude matcher measure steps }

def compute (matcher : Matcher α) : Run α :=
  match matcher.costs with
  | some costs => computeFull matcher costs
  | none => computeByName matcher

def align (options : Options α) (primary secondary : FlowGraph) : Logged Fault (Alignment α) := do
  let matcher ← process options primary secondary
  let run := compute matcher
  Logged.leave run.notes
  Logged.ofExcept run.result

def adjustedCosts (matcher : Matcher α) (pairs : List (Int × Int)) : Except Fault (Grid α) := do
  let partners ← partnersFrom (List.replicate matcher.primary.size none) pairs
  match matcher.costs with
  | some costs => refinedCosts matcher.options costs matcher.primary matcher.secondary partners
  | none =>
      let _ ← topology matcher.primary matcher.secondary partners
      throw (.data .wrongType)

end FlowAlign.Align
