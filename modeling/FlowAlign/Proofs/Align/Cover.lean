import FlowAlign.Proofs.Align.Entries
import FlowAlign.Proofs.Align.Names
import FlowAlign.Quantity.Instances

/-!
Every alignment that is computed covers both graphs in order. The only way to fail is a cell of the
table that no case explains, and alignment by name cannot even fail that way. Nothing is assumed about
the arithmetic.
-/

namespace FlowAlign.Align

variable {α : Type} [Quantity α]

theorem process_ready (options : Options α) {primary : FlowGraph} (secondary : FlowGraph)
    (nonempty : primary.blocks ≠ []) :
    ∃ matcher, (process options primary secondary).outcome = .ok matcher ∧
      Ready matcher options primary secondary := by
  by_cases degraded : isDegraded options primary secondary
  · simp only [process, degraded, if_true, Logged.outcome_bind, Logged.outcome_note,
      Outcome.ok_bind, Logged.outcome_pure]
    refine ⟨_, rfl, ?_⟩
    exact ⟨rfl, rfl, rfl, Measure.sound_empty, by simp [degraded]⟩
  · obtain ⟨measure, sound, prepared⟩ := prepare_eq options secondary nonempty
    simp only [process, degraded, Bool.false_eq_true, if_false, Logged.outcome_bind,
      Logged.outcome_note, Outcome.ok_bind, Logged.outcome_ofExcept, prepared,
      Logged.outcome_pure]
    refine ⟨_, rfl, ?_⟩
    exact ⟨rfl, rfl, rfl, sound, by simp [degraded]⟩

/-- What one refinement preserves, any number of refinements preserves. -/
theorem refine_result {step : List Step → Except Fault (List Step × α)} {good : List Step → Prop}
    {bad : Fault → Prop}
    (keeps : ∀ alignment refined cost, good alignment → step alignment = .ok (refined, cost) →
      good refined)
    (fails : ∀ alignment fault, good alignment → step alignment = .error fault → bad fault) :
    ∀ (fuel count : Nat) (alignment : List Step) (previous : Option α), good alignment →
      (∃ refined, (refine step fuel count alignment previous).result = .ok refined ∧ good refined) ∨
      ∃ fault, (refine step fuel count alignment previous).result = .error fault ∧ bad fault := by
  intro fuel
  induction fuel with
  | zero =>
      intro count alignment previous isGood
      exact Or.inl ⟨alignment, rfl, isGood⟩
  | succ fuel ih =>
      intro count alignment previous isGood
      simp only [refine]
      split
      · rename_i fault failed
        exact Or.inr ⟨fault, rfl, fails alignment fault isGood failed⟩
      · rename_i refined cost succeeded
        have stillGood := keeps alignment refined cost isGood succeeded
        split
        · exact Or.inl ⟨refined, rfl, stillGood⟩
        · exact ih (count + 1) refined (some cost) stillGood

/-- The path that is found under the costs, before its steps are classified. -/
def pathOf (options : Options α) (primary secondary : FlowGraph) : Except Fault (List Step) :=
  match globalAlignment (costsOf options primary secondary).base options.gapCost with
  | .error fault => .error (.alignment fault)
  | .ok (steps, _) =>
      if 1 < primary.size ∨ 1 < secondary.size then
        (refine (refineOnce options (costsOf options primary secondary) primary secondary)
          options.maxIterations.toNat 0 steps none).result
      else .ok steps

def IsInconsistent (fault : Fault) : Prop :=
  ∃ row column, fault = .alignment (.inconsistentCell row column)

section

variable (options : Options α) {primary secondary : FlowGraph}
  (primaryFormed : primary.WellFormed) (secondaryFormed : secondary.WellFormed)

include primaryFormed secondaryFormed

theorem refineOnce_path {steps refined : List Step} {cost : α}
    (path : Path 0 0 steps primary.size secondary.size)
    (succeeded : refineOnce options (costsOf options primary secondary) primary secondary steps =
      .ok (refined, cost)) :
    Path 0 0 refined primary.size secondary.size := by
  rw [refineOnce_eq options primaryFormed secondaryFormed path] at succeeded
  cases found : globalAlignment (refinedOf options primary secondary
      (partnersOf primary.size steps)) options.gapCost with
  | error fault => simp [found, Except.mapError] at succeeded
  | ok result =>
      simp only [found, Except.mapError, Except.ok.injEq] at succeeded
      subst succeeded
      have inside := globalAlignment_path found
      rwa [refinedOf_height] at inside

theorem refineOnce_fault {steps : List Step} {fault : Fault}
    (path : Path 0 0 steps primary.size secondary.size)
    (failed : refineOnce options (costsOf options primary secondary) primary secondary steps =
      .error fault) :
    IsInconsistent fault := by
  rw [refineOnce_eq options primaryFormed secondaryFormed path] at failed
  cases found : globalAlignment (refinedOf options primary secondary
      (partnersOf primary.size steps)) options.gapCost with
  | error cause =>
      simp only [found, Except.mapError, Except.error.injEq] at failed
      obtain ⟨row, column, rfl⟩ := globalAlignment_error found
      exact ⟨row, column, failed.symm⟩
  | ok result => simp [found, Except.mapError] at failed

theorem pathOf_cases :
    (∃ steps, pathOf options primary secondary = .ok steps ∧
      Path 0 0 steps primary.size secondary.size) ∨
    ∃ fault, pathOf options primary secondary = .error fault ∧ IsInconsistent fault := by
  simp only [pathOf]
  split
  · rename_i fault failed
    obtain ⟨row, column, rfl⟩ := globalAlignment_error failed
    exact Or.inr ⟨_, rfl, row, column, rfl⟩
  · rename_i steps cost found
    have path : Path 0 0 steps primary.size secondary.size := by
      have inside := globalAlignment_path found
      rwa [costsOf_base_height] at inside
    split
    · exact refine_result
        (fun _ _ _ good => refineOnce_path options primaryFormed secondaryFormed good)
        (fun _ _ good => refineOnce_fault options primaryFormed secondaryFormed good)
        options.maxIterations.toNat 0 steps none path
    · exact Or.inl ⟨steps, rfl, path⟩

theorem computeFull_result {matcher : Matcher α} (ready : Ready matcher options primary secondary) :
    (computeFull matcher (costsOf options primary secondary)).result =
      (pathOf options primary secondary).map (alignmentOf options primary secondary) := by
  have unfolded : (computeFull matcher (costsOf options primary secondary)).result =
      (pathOf options primary secondary).bind (conclude matcher matcher.measure) := by
    simp only [computeFull, pathOf, ready.options_eq, ready.primary_eq, ready.secondary_eq]
    cases globalAlignment (costsOf options primary secondary).base options.gapCost with
    | error fault => rfl
    | ok found =>
        by_cases several : 1 < primary.size ∨ 1 < secondary.size
        · simp [several, Except.bind]
        · simp [several, Except.bind]
  rw [unfolded]
  rcases pathOf_cases options primaryFormed secondaryFormed with
    ⟨steps, found, path⟩ | ⟨fault, failed, _⟩
  · rw [found]
    exact conclude_eq ready ready.sound path
  · rw [failed]
    rfl

theorem computeByName_path {matcher : Matcher α} (ready : Ready matcher options primary secondary) :
    ∃ after steps, nameAlignment options matcher.measure primary secondary = .ok (after, steps) ∧
      Path 0 0 steps primary.size secondary.size ∧
      (computeByName matcher).result = .ok (alignmentOf options primary secondary steps) := by
  obtain ⟨after, steps, named, sound, path⟩ :=
    nameAlignment_path options primaryFormed secondaryFormed ready.sound
  refine ⟨after, steps, named, path, ?_⟩
  simp only [computeByName, ready.options_eq, ready.primary_eq, ready.secondary_eq, named,
    Outcome.ok_bind]
  exact conclude_eq ready sound path

/-- A computation ends with a path through both graphs, or at a cell that no case explains. -/
theorem compute_path {matcher : Matcher α} (ready : Ready matcher options primary secondary) :
    (∃ steps, Path 0 0 steps primary.size secondary.size ∧
      (compute matcher).result = .ok (alignmentOf options primary secondary steps)) ∨
    isDegraded options primary secondary = false ∧
      ∃ fault, IsInconsistent fault ∧ (compute matcher).result = .error fault := by
  simp only [compute, ready.costs_eq]
  by_cases degraded : isDegraded options primary secondary
  · obtain ⟨_, steps, _, path, result⟩ :=
      computeByName_path options primaryFormed secondaryFormed ready
    simp only [degraded, if_true]
    exact Or.inl ⟨steps, path, result⟩
  · simp only [degraded, Bool.false_eq_true, if_false]
    rw [computeFull_result options primaryFormed secondaryFormed ready]
    rcases pathOf_cases options primaryFormed secondaryFormed with
      ⟨steps, found, path⟩ | ⟨fault, failed, inconsistent⟩
    · exact Or.inl ⟨steps, path, by rw [found]; rfl⟩
    · exact Or.inr ⟨trivial, fault, inconsistent, by rw [failed]; rfl⟩

omit primaryFormed secondaryFormed in
theorem align_of_process {matcher : Matcher α}
    (processed : (process options primary secondary).outcome = .ok matcher) :
    (align options primary secondary).outcome = (compute matcher).result := by
  simp only [align, Logged.outcome_bind, processed, Outcome.ok_bind, Logged.outcome_leave,
    Logged.outcome_ofExcept]

theorem align_path {alignment : Alignment α}
    (aligned : (align options primary secondary).outcome = .ok alignment) :
    ∃ steps, Path 0 0 steps primary.size secondary.size ∧
      alignment = alignmentOf options primary secondary steps := by
  obtain ⟨matcher, processed, ready⟩ := process_ready options secondary primaryFormed.nonempty
  rw [align_of_process options processed] at aligned
  rcases compute_path options primaryFormed secondaryFormed ready with
    ⟨steps, path, result⟩ | ⟨_, fault, _, result⟩
  · rw [aligned, Except.ok.injEq] at result
    exact ⟨steps, path, result⟩
  · rw [aligned] at result
    cases result

/-- Aligning two graphs that are not too large classifies the path that is found under the costs. -/
theorem align_outcome (full : isDegraded options primary secondary = false) :
    (align options primary secondary).outcome =
      (pathOf options primary secondary).map (alignmentOf options primary secondary) := by
  obtain ⟨matcher, processed, ready⟩ := process_ready options secondary primaryFormed.nonempty
  have costs : matcher.costs = some (costsOf options primary secondary) := by
    simp [ready.costs_eq, full]
  rw [align_of_process options processed, compute, costs]
  exact computeFull_result options primaryFormed secondaryFormed ready

end

/-- Every block of both graphs is in exactly one entry, in the order of both, and the status of an
entry says which of its sides are there. -/
structure Covers (alignment : Alignment α) (primary secondary : FlowGraph) : Prop where
  primaryIds_eq : alignment.primaryIds = (List.range primary.size).map Int.ofNat
  secondaryIds_eq : alignment.secondaryIds = (List.range secondary.size).map Int.ofNat
  never_empty : ∀ entry ∈ alignment.entries, ¬(entry.primary = none ∧ entry.secondary = none)
  inserted_iff : ∀ entry ∈ alignment.entries, entry.status = .inserted ↔ entry.primary = none
  deleted_iff : ∀ entry ∈ alignment.entries, entry.status = .deleted ↔ entry.secondary = none
  paired : ∀ entry ∈ alignment.entries, entry.primary ≠ none → entry.secondary ≠ none →
    entry.status = .matched ∨ entry.status = .modified

theorem alignmentOf_covers (options : Options α) {primary secondary : FlowGraph}
    {steps : List Step} (path : Path 0 0 steps primary.size secondary.size) :
    Covers (alignmentOf options primary secondary steps) primary secondary := by
  have status (row column : Nat) := pairStatus_eq options (primary.blockAt row)
    (secondary.blockAt column)
    (Measure.likeness (primary.blockAt row).tokens (secondary.blockAt column).tokens)
  refine ⟨alignmentOf_primaryIds options path, alignmentOf_secondaryIds options path,
    ?_, ?_, ?_, ?_⟩
  all_goals
    intro entry member
    obtain ⟨step, _, rfl⟩ := List.mem_map.mp member
    cases step with
    | insertion column => simp [entryOf]
    | deletion row => simp [entryOf]
    | pairing row column => rcases status row column with is | is <;> simp [entryOf, is]

/-- Whatever the options and the arithmetic, aligning two checked graphs ends with a valid alignment
that covers both of them, or stops at a cell of the table that no case explains. The latter never
happens when blocks are matched by name. -/
theorem compute_covers (options : Options α) (primary secondary : FlowGraph)
    (primaryChecked : primary.check = .ok ()) (secondaryChecked : secondary.check = .ok ()) :
    ∃ matcher, (process options primary secondary).outcome = .ok matcher ∧
      ((∃ alignment, (compute matcher).result = .ok alignment ∧
          alignment.primary = primary ∧ alignment.secondary = secondary ∧
          alignment.validate = .ok () ∧ Covers alignment primary secondary) ∨
        (isDegraded options primary secondary = false ∧ ∃ row column,
          (compute matcher).result = .error (.alignment (.inconsistentCell row column)))) := by
  have primaryFormed := FlowGraph.check_wellFormed primaryChecked
  have secondaryFormed := FlowGraph.check_wellFormed secondaryChecked
  obtain ⟨matcher, processed, ready⟩ := process_ready options secondary primaryFormed.nonempty
  refine ⟨matcher, processed, ?_⟩
  rcases compute_path options primaryFormed secondaryFormed ready with
    ⟨steps, path, result⟩ | ⟨full, fault, ⟨row, column, rfl⟩, result⟩
  · exact Or.inl ⟨_, result, rfl, rfl, alignmentOf_validate options path,
      alignmentOf_covers options path⟩
  · exact Or.inr ⟨full, row, column, result⟩

/-- A block that branches to itself or on to a second one. -/
def loopGraph : FlowGraph :=
  { name := "loop"
    blocks :=
      [{ id := 0, tokens := [{ opcode := "cond_branch.eq" }]
         edges := [{ source := 0, target := 0, kind := .branchTrue },
           { source := 0, target := 1, kind := .branchFalse }] },
       { id := 1, tokens := [{ opcode := "return" }], edges := [] }]
    display := { labels := ["head", "tail"], texts := [], addresses := [] } }

def returnGraph : FlowGraph :=
  { name := "return"
    blocks := [{ id := 0, tokens := [{ opcode := "return" }], edges := [] }]
    display := { labels := ["tail"], texts := [], addresses := [] } }

/-- Even a gap that costs no number leaves no third way to end. -/
theorem compute_covers_nan :
    let options : Options Float := { Options.standard with gapCost := 0.0 / 0.0 }
    loopGraph.check = .ok () ∧ returnGraph.check = .ok () ∧
      ∃ matcher, (process options loopGraph returnGraph).outcome = .ok matcher ∧
        ((∃ alignment, (compute matcher).result = .ok alignment ∧
            alignment.primary = loopGraph ∧ alignment.secondary = returnGraph ∧
            alignment.validate = .ok () ∧ Covers alignment loopGraph returnGraph) ∨
          (isDegraded options loopGraph returnGraph = false ∧ ∃ row column,
            (compute matcher).result = .error (.alignment (.inconsistentCell row column)))) := by
  have loopChecked : loopGraph.check = .ok () := by rfl
  have returnChecked : returnGraph.check = .ok () := by rfl
  exact ⟨loopChecked, returnChecked,
    compute_covers _ loopGraph returnGraph loopChecked returnChecked⟩

end FlowAlign.Align
