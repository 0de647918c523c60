import Mathlib
import FlowAlign.Compare.Session
import FlowAlign.Proofs.Align.Cover
import FlowAlign.Proofs.Code.Canonical
import FlowAlign.Proofs.Graph.Shape

/-!
What a verdict of no difference stands for. Every block is then paired with the block at its own
position, and the two have the same tokens and the same kinds of ways out. Where these ways lead, and
how many of one kind there are, is not part of the verdict.
-/

namespace FlowAlign

/-- Blocks that agree in themselves, whatever their edges lead to. -/
structure Block.Alike (first second : Block) : Prop where
  id_eq : first.id = second.id
  tokens_eq : first.tokens.map Token.key = second.tokens.map Token.key
  kinds_iff : ∀ kind, kind ∈ first.edgeKinds ↔ kind ∈ second.edgeKinds

namespace Align

theorem Path.pairings {row column lastRow lastColumn : Nat} {steps : List Step}
    (path : Path row column steps lastRow lastColumn)
    (paired : ∀ step ∈ steps, ∃ first second, step = .pairing first second) :
    ∃ count, lastRow = row + count ∧ lastColumn = column + count ∧
      ∀ offset < count, Step.pairing (row + offset) (column + offset) ∈ steps := by
  induction path with
  | done => exact ⟨0, rfl, rfl, by omega⟩
  | @insertion _ column _ _ _ _ _ =>
      obtain ⟨_, _, wrong⟩ := paired (.insertion column) (by simp)
      cases wrong
  | @deletion row _ _ _ _ _ _ =>
      obtain ⟨_, _, wrong⟩ := paired (.deletion row) (by simp)
      cases wrong
  | @pairing row column rest _ _ _ ih =>
      obtain ⟨count, rows, columns, members⟩ :=
        ih fun step member => paired step (List.mem_cons_of_mem _ member)
      refine ⟨count + 1, by omega, by omega, ?_⟩
      intro offset below
      cases offset with
      | zero => simp
      | succ offset =>
          have member := members offset (by omega)
          rw [Nat.add_right_comm row, Nat.add_right_comm column] at member
          exact List.mem_cons_of_mem _ member

variable {α : Type} [Quantity α]

/-- When every entry is matched, the blocks agree position by position. -/
theorem alignmentOf_identical {options : Options α} {primary secondary : FlowGraph}
    {steps : List Step} (primaryFormed : primary.WellFormed)
    (secondaryFormed : secondary.WellFormed)
    (path : Path 0 0 steps primary.size secondary.size)
    (identical : (alignmentOf options primary secondary steps).isIdentical = true) :
    List.Forall₂ Block.Alike primary.blocks secondary.blocks := by
  have matched : ∀ step ∈ steps, (entryOf options primary secondary step).status = .matched := by
    simpa [Alignment.isIdentical, alignmentOf] using identical
  have paired : ∀ step ∈ steps, ∃ first second, step = .pairing first second := by
    intro step member
    have status := matched step member
    cases step with
    | insertion column => simp [entryOf] at status
    | deletion row => simp [entryOf] at status
    | pairing row column => exact ⟨row, column, rfl⟩
  obtain ⟨count, rows, columns, members⟩ := path.pairings paired
  have lengths : primary.blocks.length = secondary.blocks.length := by
    simp only [FlowGraph.size] at rows columns
    omega
  rw [List.forall₂_iff_get]
  refine ⟨lengths, ?_⟩
  intro position first second
  have found : primary.blocks[position]? = some (primary.blocks.get ⟨position, first⟩) := by
    simp [first]
  have found' : secondary.blocks[position]? = some (secondary.blocks.get ⟨position, second⟩) := by
    simp [second]
  have below : position < count := by
    simp only [FlowGraph.size] at rows
    omega
  have status := matched _ (members position below)
  simp only [Nat.zero_add, entryOf, FlowGraph.blockAt, List.getD_eq_getElem?_getD, found, found',
    Option.getD_some] at status
  obtain ⟨tokens, kinds⟩ := pairStatus_matched status
  have id := (primaryFormed.placed position _ found).1
  have id' := (secondaryFormed.placed position _ found').1
  exact ⟨id.trans id'.symm, tokens, kinds⟩

end Align

namespace Compare

variable {α : Type} [Quantity α]

/-- A verdict of no difference rests on an alignment in which every entry is matched. -/
theorem functions_alignment {options : Options α} {first second : Function} {diff : FunctionDiff α}
    (compared : (functions options first second).outcome = .ok diff)
    (identical : diff.status = .identical) :
    ∃ alignment warnings, (alignFunctions options first second).outcome =
      .ok (alignment, warnings) ∧ alignment.isIdentical = true := by
  simp only [functions, Logged.outcome_bind, Logged.outcome_attempt, Outcome.ok_bind] at compared
  cases aligned : (alignFunctions options first second).outcome with
  | error fault =>
      simp only [aligned] at compared
      split at compared
      · simp only [Logged.outcome_bind, Logged.outcome_note, Outcome.ok_bind,
          Logged.outcome_pure] at compared
        obtain ⟨name, _, compared⟩ := Outcome.bind_eq_ok compared
        obtain ⟨name', _, compared⟩ := Outcome.bind_eq_ok compared
        simp only [Except.ok.injEq] at compared
        rw [← compared] at identical
        simp [FunctionDiff.failed, FunctionDiff.status] at identical
      · simp at compared
  | ok result =>
      obtain ⟨alignment, warnings⟩ := result
      simp only [aligned, Logged.outcome_bind, Logged.outcome_liftM] at compared
      obtain ⟨name, _, compared⟩ := Outcome.bind_eq_ok compared
      obtain ⟨name', _, compared⟩ := Outcome.bind_eq_ok compared
      simp only [FunctionDiff.ofAlignment] at compared
      obtain ⟨blocks, _, compared⟩ := Outcome.bind_eq_ok compared
      simp only [Outcome.pure_eq, Except.ok.injEq] at compared
      rw [← compared] at identical
      refine ⟨alignment, warnings, rfl, ?_⟩
      simp only [FunctionDiff.status] at identical
      split at identical
      · assumption
      · simp at identical

/-- No difference is reported only where both functions have the same number of blocks, and the blocks
at every position agree in themselves. -/
theorem functions_identical (options : Options α) (first second : Function)
    (diff : FunctionDiff α) (compared : (functions options first second).outcome = .ok diff)
    (identical : diff.status = .identical) :
    ∃ graph other, first.canonicalize.outcome = .ok graph ∧
      second.canonicalize.outcome = .ok other ∧
      List.Forall₂ Block.Alike graph.blocks other.blocks := by
  obtain ⟨alignment, warnings, aligned, allMatched⟩ := functions_alignment compared identical
  simp only [alignFunctions, Logged.outcome_bind, Logged.outcome_leave, Logged.outcome_ofExcept,
    Outcome.ok_bind, Logged.outcome_pure] at aligned
  obtain ⟨graph, canonical, aligned⟩ := Outcome.bind_eq_ok aligned
  obtain ⟨other, canonical', aligned⟩ := Outcome.bind_eq_ok aligned
  obtain ⟨matcher, processed, aligned⟩ := Outcome.bind_eq_ok aligned
  obtain ⟨found, computed, aligned⟩ := Outcome.bind_eq_ok aligned
  simp only [Except.ok.injEq, Prod.mk.injEq] at aligned
  have formed := FlowGraph.check_wellFormed (Function.canonicalize_check canonical)
  have formed' := FlowGraph.check_wellFormed (Function.canonicalize_check canonical')
  refine ⟨graph, other, canonical, canonical', ?_⟩
  obtain ⟨ready, processed', isReady⟩ := Align.process_ready options other formed.nonempty
  obtain rfl : ready = matcher := by
    rw [processed] at processed'
    simpa using processed'.symm
  rcases Align.compute_path options formed formed' isReady with
    ⟨steps, path, result⟩ | ⟨_, fault, _, result⟩
  · rw [computed, Except.ok.injEq] at result
    rw [← aligned.1, result] at allMatched
    exact Align.alignmentOf_identical formed formed' path allMatched
  · rw [computed] at result
    cases result

/-- A conditional jump to itself, and a computed jump back to it. -/
def tightLoop : Function :=
  { rawName := "loop"
    name := pure "loop"
    address := 0
    format := .x64
    stream := pure
      [{ address := 0, mnemonic := "je", text := "je 0", flow := .condJump, targets := [0] },
       { address := 2, mnemonic := "jmp", text := "jmp rax", flow := .indirectJump
         targets := [0] }] }

/-- The conditional jump now leads on, and the computed one also to itself. -/
def wideLoop : Function :=
  { rawName := "loop"
    name := pure "loop"
    address := 0
    format := .x64
    stream := pure
      [{ address := 0, mnemonic := "je", text := "je 2", flow := .condJump, targets := [2] },
       { address := 2, mnemonic := "jmp", text := "jmp rax", flow := .indirectJump
         targets := [0, 2] }] }

def tightGraph : FlowGraph :=
  { name := "loop"
    blocks :=
      [{ id := 0, tokens := [{ opcode := "cond_branch.eq" }]
         edges := [{ source := 0, target := 0, kind := .branchTrue },
           { source := 0, target := 1, kind := .branchFalse }] },
       { id := 1, tokens := [{ opcode := "indirect_branch" }]
         edges := [{ source := 1, target := 0, kind := .indirect }] }]
    display :=
      { labels := ["+0x0", "+0x2"], texts := [["je 0"], ["jmp rax"]], addresses := [[0], [2]] } }

def wideGraph : FlowGraph :=
  { name := "loop"
    blocks :=
      [{ id := 0, tokens := [{ opcode := "cond_branch.eq" }]
         edges := [{ source := 0, target := 1, kind := .branchTrue },
           { source := 0, target := 1, kind := .branchFalse }] },
       { id := 1, tokens := [{ opcode := "indirect_branch" }]
         edges := [{ source := 1, target := 0, kind := .indirect },
           { source := 1, target := 1, kind := .indirect }] }]
    display :=
      { labels := ["+0x0", "+0x2"], texts := [["je 2"], ["jmp rax"]], addresses := [[0], [2]] } }

theorem tightLoop_canonical : tightLoop.canonicalize.outcome = .ok tightGraph := by
  cbv

theorem wideLoop_canonical : wideLoop.canonicalize.outcome = .ok wideGraph := by
  cbv

set_option maxRecDepth 10000 in
theorem loops_identical :
    (functions (Options.standard : Options Rat) tightLoop wideLoop).outcome.toOption.map
      FunctionDiff.status = some .identical := by
  -- `decide` cannot open the recursion that sorts the edges, but it can run the alignment
  simp only [functions, alignFunctions, Logged.outcome_bind, Logged.outcome_attempt,
    Logged.outcome_leave, Logged.outcome_ofExcept, Outcome.ok_bind, tightLoop_canonical,
    wideLoop_canonical]
  with_unfolding_all decide

/-- Both loops have two blocks, and no difference is reported between them, but none of their jumps
leads to the same places. -/
theorem retargeted_unreported :
    tightLoop.format = wideLoop.format ∧
    ∃ graph other diff,
      tightLoop.canonicalize.outcome = .ok graph ∧ wideLoop.canonicalize.outcome = .ok other ∧
      graph.size ≤ (Options.standard : Options Rat).maxBlocks ∧
      other.size ≤ (Options.standard : Options Rat).maxBlocks ∧
      (functions (Options.standard : Options Rat) tightLoop wideLoop).outcome = .ok diff ∧
      diff.status = .identical ∧ graph.shape ≠ other.shape := by
  obtain ⟨diff, compared, identical⟩ := Outcome.toOption_map_eq_some loops_identical
  refine ⟨rfl, tightGraph, wideGraph, diff, tightLoop_canonical, wideLoop_canonical, by decide,
    by decide, compared, identical, ?_⟩
  intro same
  exact absurd (FlowGraph.edges_eq_of_shape same) (by decide)

theorem functions_identical_loops :
    ∃ diff, (functions (Options.standard : Options Rat) tightLoop wideLoop).outcome = .ok diff ∧
      diff.status = .identical ∧
      ∃ graph other, tightLoop.canonicalize.outcome = .ok graph ∧
        wideLoop.canonicalize.outcome = .ok other ∧
        List.Forall₂ Block.Alike graph.blocks other.blocks := by
  obtain ⟨diff, compared, identical⟩ := Outcome.toOption_map_eq_some loops_identical
  exact ⟨diff, compared, identical,
    functions_identical Options.standard tightLoop wideLoop diff compared identical⟩

end Compare

end FlowAlign
