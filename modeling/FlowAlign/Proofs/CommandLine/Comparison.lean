import FlowAlign.CommandLine.Run
import FlowAlign.Proofs.Blame

/-!
The comparison that the command makes. Either it refuses to, because a program cannot be loaded or
there is nothing to compare, or it takes pairs of functions, all of them with names. Every pair then
has a result, or the first one without a result stops the comparison, which is not the fault of the
input.
-/

namespace FlowAlign.CommandLine

open Reading (Yields)

theorem Range.check_outcome {β : Type} [Ranged β] (range : Range β) (value : β) :
    (range.check value).outcome =
      .ok (if range.accepts value then value else range.default) := by
  unfold check
  split <;> rfl

namespace Settings

/-- A right-hand name is given without a left-hand one. -/
def RightAlone (settings : Settings) : Prop :=
  settings.rightName.isSome = true ∧ settings.name = none

def selection (settings : Settings) : Option Selection :=
  settings.name.map fun name => { name := name, rightName := settings.rightName }

theorem ofNames_selection {settings : Settings} (accompanied : ¬ settings.RightAlone) :
    Selection.ofNames settings.name settings.rightName = .ok settings.selection := by
  cases hasName : settings.name with
  | some name => simp [Selection.ofNames, selection, hasName]
  | none =>
      cases hasRight : settings.rightName with
      | none => simp [Selection.ofNames, selection, hasName]
      | some right => exact absurd ⟨by rw [hasRight]; rfl, hasName⟩ accompanied

/-- Parameters out of range are replaced and nothing else is changed. -/
theorem checked_outcome (settings : Settings) : ∃ options jobs,
    (checkedOptions settings.options).outcome = .ok options ∧
    settings.checked.outcome = .ok { settings with options := options, jobs := jobs } := by
  have inside : ∃ options, (checkedOptions settings.options).outcome = .ok options := by
    simp only [checkedOptions, Logged.outcome_bind, Range.check_outcome, Outcome.ok_bind,
      Logged.outcome_pure]
    exact ⟨_, rfl⟩
  obtain ⟨options, isChecked⟩ := inside
  have workers : ∃ jobs, (({ label := "Jobs", default := 1, low := 1 } : Range Int).check
      settings.jobs).outcome = .ok jobs := ⟨_, Range.check_outcome _ _⟩
  obtain ⟨jobs, isJobs⟩ := workers
  refine ⟨options, jobs, isChecked, ?_⟩
  simp only [checked, Logged.outcome_bind, isChecked, isJobs, Outcome.ok_bind, Logged.outcome_pure]

end Settings

/-- Programs that are in memory are decoded without blaming the input. -/
def Workspace.Blameless (workspace : Workspace) : Prop :=
  ∀ entry ∈ workspace.programs, RawFunction.Blameless entry.2

/-- Both programs, the second one loaded with what the first one left of the tools. -/
def loading (workspace : Workspace) (settings : Settings) : Except Fault (Program × Program) := do
  let (primary, toolkit) ←
    ((loadProgram workspace settings.primary settings.format) workspace.toolkit).outcome
  let (secondary, _) ← ((loadProgram workspace settings.secondary settings.format) toolkit).outcome
  return (primary, secondary)

/-- Two programs have nothing to compare: no name is common to both, or one of them lacks the function
that is asked for. -/
def Unpaired (settings : Settings) (primary secondary : Program) : Prop :=
  match settings.name with
  | none => ∀ name ∈ primary.keys, name ∉ secondary.keys
  | some name => primary.find? name = none ∨ secondary.find? (settings.rightName.getD name) = none

/-- A program cannot be loaded, or there is nothing to compare. -/
inductive Refused (workspace : Workspace) (settings : Settings) : Prop
  | unloaded {fault} : loading workspace settings = .error fault → Refused workspace settings
  | unpaired {primary secondary} : loading workspace settings = .ok (primary, secondary) →
      Unpaired settings primary secondary → Refused workspace settings

/-- The pairs that are compared, and the options this is done with. -/
structure Compares (workspace : Workspace) (settings : Settings) (options : Options Float)
    (pairs : List (Function × Function)) : Prop where
  checked : (Settings.checkedOptions settings.options).outcome = .ok options
  paired : ∃ primary secondary, loading workspace settings = .ok (primary, secondary) ∧
    Compare.pairs primary secondary settings.selection = .ok pairs

/-- The instructions of all functions that are compared can be had. -/
def Decodable (workspace : Workspace) (settings : Settings) : Prop :=
  ∀ options pairs, Compares workspace settings options pairs →
    ∀ pair ∈ pairs, pair.1.Readable ∧ pair.2.Readable

section Comparison

variable {workspace : Workspace} {settings : Settings}

/-- The result of comparing both programs, with options that were checked. -/
def compared (workspace : Workspace) (settings : Settings) (options : Options Float) :
    Except Fault (ProgramDiff Float) := do
  let (primary, secondary) ← loading workspace settings
  ({ primary := primary, secondary := secondary, selection := settings.selection
     options := options } : Session Float).result.outcome

theorem compareFiles_outcome (accompanied : ¬ settings.RightAlone) :
    ((compareFiles workspace settings) workspace.toolkit).outcome.map Prod.fst =
      compared workspace settings settings.options := by
  simp only [compareFiles, tell, Reading.outcome_bind, Reading.outcome_logged,
    Logged.outcome_note, Outcome.ok_bind, compared, loading,
    Settings.ofNames_selection accompanied, Reading.outcome_except]
  cases ((loadProgram workspace settings.primary settings.format) workspace.toolkit).outcome with
  | error fault => rfl
  | ok first =>
      simp only [Outcome.ok_bind]
      cases ((loadProgram workspace settings.secondary settings.format) first.2).outcome with
      | error fault => rfl
      | ok second =>
          simp only [Outcome.ok_bind, Outcome.pure_eq]
          rw [Outcome.map_fst_bind]

theorem loadProgram_loaded (workspace : Workspace) (path : Path) (format : Format) :
    Yields (fun program => ∃ demangler name raws,
      (Program.load demangler (.empty name format) raws).outcome = .ok program)
      (loadProgram workspace path format) := by
  unfold loadProgram
  split
  · exact .of_next fun _ => .of_next fun _ => .logged fun _ entered => ⟨_, _, _, entered⟩
  · exact .of_next fun _ => .of_next fun _ => .logged fun _ entered => ⟨_, _, _, entered⟩

theorem loadProgram_blameless (blameless : workspace.Blameless) (path : Path) (format : Format) :
    Yields Program.Blameless (loadProgram workspace path format) := by
  unfold loadProgram
  split
  · rename_i functions known
    obtain ⟨_, _, split, _⟩ := List.lookup_eq_some_iff.mp known
    have held : RawFunction.Blameless functions := blameless (path.text, functions) (by simp [split])
    exact .of_next fun _ => .bind (Load.reread_yields held) fun _ reread =>
      Program.load_yields _ _ _ reread
  · exact Load.program_yields _ _ _

/-- What holds of every program that is loaded holds of both. -/
theorem loading_yields {good : Program → Prop} {primary secondary : Program}
    (each : ∀ path, Yields good (loadProgram workspace path settings.format))
    (loaded : loading workspace settings = .ok (primary, secondary)) :
    good primary ∧ good secondary := by
  rw [loading] at loaded
  obtain ⟨first, isFirst, loaded⟩ := Outcome.bind_eq_ok loaded
  obtain ⟨second, isSecond, same⟩ := Outcome.bind_eq_ok loaded
  cases same
  exact ⟨each _ _ _ isFirst, each _ _ _ isSecond⟩

/-- Pairing fails exactly when there is nothing to compare, and gives functions of both programs
otherwise. -/
theorem pairs_cases (settings : Settings) (primary secondary : Program) :
    (Unpaired settings primary secondary ∧ ∃ side name,
      Compare.pairs primary secondary settings.selection = .error (.noFunctions side name)) ∨
    (¬ Unpaired settings primary secondary ∧ ∃ pairs,
      Compare.pairs primary secondary settings.selection = .ok pairs ∧ ∀ pair ∈ pairs,
        ∃ wanted wanted', primary.find? wanted = some pair.1 ∧
          secondary.find? wanted' = some pair.2) := by
  cases hasName : settings.name with
  | none =>
      simp only [Unpaired, Settings.selection, hasName, Option.map_none, Compare.pairs]
      by_cases empty : Compare.commonNames primary secondary = []
      · refine Or.inl ⟨?_, .either, none, by simp [empty]⟩
        intro name isPrimary isSecondary
        have common := Compare.mem_commonNames.mpr ⟨isPrimary, isSecondary⟩
        rw [empty] at common
        cases common
      · obtain ⟨shared, common⟩ := List.exists_mem_of_ne_nil _ empty
        obtain ⟨isPrimary, isSecondary⟩ := Compare.mem_commonNames.mp common
        refine Or.inr ⟨fun apart => apart shared isPrimary isSecondary, _,
          by rw [if_neg (by simpa using empty)], ?_⟩
        intro pair member
        obtain ⟨name, _, found, found'⟩ :=
          mem_related (Compare.commonPairs_related primary secondary) pair member
        exact ⟨name, name, by rw [Program.find?, found], by rw [Program.find?, found']⟩
  | some name =>
      simp only [Unpaired, Settings.selection, hasName, Option.map_some, Compare.pairs,
        Compare.selectedPair]
      cases found : primary.find? name with
      | none =>
          cases found' : secondary.find? (settings.rightName.getD name) with
          | none => exact Or.inl ⟨Or.inl rfl, _, _, rfl⟩
          | some right => exact Or.inl ⟨Or.inl rfl, _, _, rfl⟩
      | some left =>
          cases found' : secondary.find? (settings.rightName.getD name) with
          | none => exact Or.inl ⟨Or.inr rfl, _, _, rfl⟩
          | some right =>
              refine Or.inr ⟨by simp, [(left, right)], rfl, ?_⟩
              intro pair member
              rw [List.mem_singleton.mp member]
              exact ⟨name, _, found, found'⟩

section Pairs

variable {options : Options Float} {pairs : List (Function × Function)}
  (compares : Compares workspace settings options pairs)

include compares

theorem Compares.found : ∃ primary secondary,
    loading workspace settings = .ok (primary, secondary) ∧ ∀ pair ∈ pairs, ∃ wanted wanted',
      primary.find? wanted = some pair.1 ∧ secondary.find? wanted' = some pair.2 := by
  obtain ⟨primary, secondary, loaded, paired⟩ := compares.paired
  refine ⟨primary, secondary, loaded, ?_⟩
  rcases pairs_cases settings primary secondary with ⟨_, _, _, failed⟩ | ⟨_, others, found, held⟩
  · rw [paired] at failed
    cases failed
  · obtain rfl : pairs = others := by simpa [paired] using found
    exact held

/-- Functions that are compared have names. -/
theorem Compares.named : ∀ pair ∈ pairs, ∃ name name', pair.1.name.outcome = .ok name ∧
    pair.2.name.outcome = .ok name' := by
  obtain ⟨primary, secondary, loaded, held⟩ := compares.found
  obtain ⟨⟨_, _, _, entered⟩, _, _, _, entered'⟩ :=
    loading_yields (fun path => loadProgram_loaded workspace path settings.format) loaded
  intro pair member
  obtain ⟨wanted, wanted', isFound, isFound'⟩ := held pair member
  obtain ⟨name, hasName⟩ := Program.exists_name_of_find? entered isFound
  obtain ⟨name', hasName'⟩ := Program.exists_name_of_find? entered' isFound'
  exact ⟨name, name', hasName, hasName'⟩

theorem Compares.blameless (blameless : workspace.Blameless) :
    ∀ pair ∈ pairs, pair.1.stream.Blameless ∧ pair.2.stream.Blameless := by
  obtain ⟨primary, secondary, loaded, held⟩ := compares.found
  obtain ⟨isPrimary, isSecondary⟩ :=
    loading_yields (fun path => loadProgram_blameless blameless path settings.format) loaded
  intro pair member
  obtain ⟨wanted, wanted', isFound, isFound'⟩ := held pair member
  obtain ⟨key, entry⟩ := Program.mem_of_find? isFound
  obtain ⟨key', entry'⟩ := Program.mem_of_find? isFound'
  exact ⟨isPrimary (key, pair.1) entry, isSecondary (key', pair.2) entry'⟩

end Pairs

theorem not_refused_of_compares {options : Options Float} {pairs : List (Function × Function)}
    (compares : Compares workspace settings options pairs) : ¬ Refused workspace settings := by
  obtain ⟨primary, secondary, loaded, paired⟩ := compares.paired
  intro refused
  cases refused with
  | unloaded failed =>
      rw [loaded] at failed
      cases failed
  | unpaired loaded' unpaired =>
      rw [loaded] at loaded'
      cases loaded'
      rcases pairs_cases settings primary secondary with ⟨_, _, _, failed⟩ | ⟨apart, _⟩
      · rw [paired] at failed
        cases failed
      · exact apart unpaired

theorem exists_compares (accepted : ¬ Refused workspace settings) :
    ∃ options pairs, Compares workspace settings options pairs := by
  obtain ⟨options, _, isChecked, _⟩ := settings.checked_outcome
  cases loaded : loading workspace settings with
  | error fault => exact absurd (.unloaded loaded) accepted
  | ok programs =>
      obtain ⟨primary, secondary⟩ := programs
      rcases pairs_cases settings primary secondary with ⟨unpaired, _⟩ | ⟨_, pairs, paired, _⟩
      · exact absurd (.unpaired loaded unpaired) accepted
      · exact ⟨options, pairs, isChecked, primary, secondary, loaded, paired⟩

section Outcomes

variable {options : Options Float} {pairs : List (Function × Function)}

/-- A refusal is a problem of the input, whatever the options are. -/
theorem compared_of_refused (options : Options Float) (refused : Refused workspace settings)
    (loadable : ∀ fault, loading workspace settings = .error fault → fault.isInputProblem = true) :
    ∃ fault, compared workspace settings options = .error fault ∧ fault.isInputProblem = true := by
  cases refused with
  | @unloaded fault failed =>
      refine ⟨fault, ?_, loadable fault failed⟩
      rw [compared, failed, Outcome.error_bind]
  | @unpaired primary secondary loaded unpaired =>
      rcases pairs_cases settings primary secondary with ⟨_, side, name, failed⟩ | ⟨apart, _⟩
      · refine ⟨.noFunctions side name, ?_, rfl⟩
        rw [compared, loaded, Outcome.ok_bind]
        simp only [Session.result, Session.compute, Session.pairs, failed, Logged.outcome_bind,
          Logged.outcome_fail, Outcome.error_bind]
      · exact absurd unpaired apart

theorem compared_of_settled (compares : Compares workspace settings options pairs)
    {diffs : List (FunctionDiff Float)} (settled : List.Forall₂ (fun pair diff =>
      (Compare.functions options pair.1 pair.2).outcome = .ok diff) pairs diffs) :
    ∃ diff, compared workspace settings options = .ok diff ∧ diff.functions = diffs := by
  obtain ⟨primary, secondary, loaded, paired⟩ := compares.paired
  let session : Session Float :=
    { primary := primary, secondary := secondary, selection := settings.selection
      options := options }
  obtain ⟨diff, done, functions, _⟩ := Session.result_of_pairs
    (show session.pairs = .ok pairs from paired) settled
  refine ⟨diff, ?_, functions⟩
  rw [compared, loaded, Outcome.ok_bind]
  exact done

theorem compared_of_stops (compares : Compares workspace settings options pairs) {fault : Fault}
    (stops : Compare.Stops options pairs fault) :
    compared workspace settings options = .error fault := by
  obtain ⟨primary, secondary, loaded, paired⟩ := compares.paired
  let session : Session Float :=
    { primary := primary, secondary := secondary, selection := settings.selection
      options := options }
  rw [compared, loaded, Outcome.ok_bind]
  exact Session.result_of_stops (show session.pairs = .ok pairs from paired) stops

end Outcomes

end Comparison

end FlowAlign.CommandLine
