import Mathlib
import FlowAlign.Compare.Session
import FlowAlign.Proofs.Compare.Pairing
import FlowAlign.Proofs.Report.Rows

/-!
Comparisons of programs, pair by pair. Two functions whose instructions can be read always have a
result, which tells of the internal fault that stopped it, if any. So every common name has its entry,
and the entry is the one that a comparison of this name alone gives.
-/

namespace FlowAlign

/-- A function whose instructions can be had. -/
def Function.Readable (function : Function) : Prop :=
  ∃ instructions, function.stream.outcome = .ok instructions

theorem Function.Readable.body {function : Function} (readable : function.Readable) :
    ∃ body, function.body.outcome = .ok body := by
  obtain ⟨instructions, found⟩ := readable
  refine ⟨keyed instructions, ?_⟩
  simp only [Function.body, Logged.outcome_bind, found, Outcome.ok_bind, Logged.outcome_pure]

theorem Function.Readable.canonicalize_fault {function : Function} {name : String} {fault : Fault}
    (readable : function.Readable) (hasName : function.name.outcome = .ok name)
    (failed : function.canonicalize.outcome = .error fault) : fault.isInternal = true := by
  obtain ⟨body, hasBody⟩ := readable.body
  by_cases empty : body = []
  · subst empty
    rw [canonicalize_empty hasBody hasName, Except.error.injEq] at failed
    rw [← failed]
    rfl
  · obtain ⟨graph, built, _⟩ := Code.build_ok function.format.classes?_isSome name
      (Code.split_closed body) (Code.split_ne_nil empty) function.labels function.address
    rw [canonicalize_outcome hasBody hasName, built] at failed
    cases failed

namespace FunctionDiff

variable {α : Type} [Quantity α]

/-- The rows of a path through two displayed graphs can be had. -/
theorem ofAlignment_ok (options : Options α) {primary secondary : FlowGraph} {steps : List Step}
    (displayed : primary.Displayed) (displayed' : secondary.Displayed)
    (path : Align.Path 0 0 steps primary.size secondary.size) (name name' : String)
    (warnings : List String) :
    ∃ blocks, ofAlignment name name' (Align.alignmentOf options primary secondary steps) warnings =
      .ok { primaryName := name, secondaryName := name'
            alignment := some (Align.alignmentOf options primary secondary steps)
            warnings := warnings, error := none, blocks := blocks } := by
  have each : ∀ entry ∈ (Align.alignmentOf options primary secondary steps).entries,
      ∃ block, BlockDiff.ofEntry (Align.alignmentOf options primary secondary steps) entry =
        .ok block ∧ True := by
    intro entry member
    obtain ⟨step, isStep, rfl⟩ := List.mem_map.mp member
    obtain ⟨block, shown, _⟩ := BlockDiff.ofEntry_shows
      (show (Align.alignmentOf options primary secondary steps).primary.Displayed from displayed)
      displayed' options (fun row taken => path.row_bound isStep taken)
      (fun column taken => path.column_bound isStep taken)
    exact ⟨block, shown, trivial⟩
  obtain ⟨blocks, listed, _⟩ := Outcome.mapM_related each
  refine ⟨blocks, ?_⟩
  simp only [ofAlignment, listed, Outcome.ok_bind, Outcome.pure_eq]

end FunctionDiff

namespace Compare

variable {α : Type} [Quantity α]

/-- The fault that stops the comparison of two functions, by the stage at which it does. -/
inductive Raises (options : Options α) (first second : Function) (fault : Fault) : Prop
  | primary : first.canonicalize.outcome = .error fault → Raises options first second fault
  | secondary {graph} : first.canonicalize.outcome = .ok graph →
      second.canonicalize.outcome = .error fault → Raises options first second fault
  | alignment {graph other} : first.canonicalize.outcome = .ok graph →
      second.canonicalize.outcome = .ok other →
      (Align.align options graph other).outcome = .error fault → Raises options first second fault

/-- An alignment of two functions is one of their canonical graphs. -/
theorem alignFunctions_outcome (options : Options α) (first second : Function) :
    (alignFunctions options first second).outcome.map Prod.fst =
      (first.canonicalize.outcome >>= fun graph => second.canonicalize.outcome >>= fun other =>
        (Align.align options graph other).outcome) := by
  simp only [alignFunctions, Align.align, Logged.outcome_bind, Logged.outcome_leave,
    Logged.outcome_ofExcept, Outcome.ok_bind, Logged.outcome_pure]
  cases first.canonicalize.outcome with
  | error fault => rfl
  | ok graph =>
      cases second.canonicalize.outcome with
      | error fault => rfl
      | ok other =>
          cases processed : (Align.process options graph other).outcome with
          | error fault => simp [processed, Except.map]
          | ok matcher =>
              cases computed : (Align.compute matcher).result with
              | error fault => simp [processed, computed, Except.map]
              | ok alignment => simp [processed, computed, Except.map]

theorem alignFunctions_ok {options : Options α} {first second : Function} {alignment : Alignment α}
    {warnings : List String}
    (aligned : (alignFunctions options first second).outcome = .ok (alignment, warnings)) :
    ∃ graph other, first.canonicalize.outcome = .ok graph ∧
      second.canonicalize.outcome = .ok other ∧
      (Align.align options graph other).outcome = .ok alignment := by
  have outcome := alignFunctions_outcome options first second
  rw [aligned] at outcome
  obtain ⟨graph, canonical, outcome⟩ := Outcome.bind_eq_ok outcome.symm
  obtain ⟨other, canonical', outcome⟩ := Outcome.bind_eq_ok outcome
  exact ⟨graph, other, canonical, canonical', outcome⟩

theorem alignFunctions_error_iff {options : Options α} {first second : Function} {fault : Fault} :
    (alignFunctions options first second).outcome = .error fault ↔
      Raises options first second fault := by
  have outcome := alignFunctions_outcome options first second
  constructor
  · intro failed
    rw [failed] at outcome
    rcases Outcome.bind_eq_error outcome.symm with failed | ⟨graph, canonical, outcome⟩
    · exact .primary failed
    · rcases Outcome.bind_eq_error outcome with failed | ⟨other, canonical', failed⟩
      · exact .secondary canonical failed
      · exact .alignment canonical canonical' failed
  · intro raises
    have failed : (alignFunctions options first second).outcome.map Prod.fst = .error fault := by
      cases raises with
      | primary failed => rw [outcome, failed]; rfl
      | secondary canonical failed => rw [outcome, canonical, Outcome.ok_bind, failed]; rfl
      | alignment canonical canonical' failed =>
          rw [outcome, canonical, Outcome.ok_bind, canonical', Outcome.ok_bind, failed]
    cases aligned : (alignFunctions options first second).outcome with
    | error cause => simpa [aligned, Except.map] using failed
    | ok result => simp [aligned, Except.map] at failed

section Functions

variable (options : Options α) {first second : Function} {name name' : String}
  (hasName : first.name.outcome = .ok name) (hasName' : second.name.outcome = .ok name')
  (readable : first.Readable) (readable' : second.Readable)

include hasName hasName' readable readable'

theorem raises_internal {fault : Fault} (raises : Raises options first second fault) :
    fault.isInternal = true := by
  cases raises with
  | primary failed => exact readable.canonicalize_fault hasName failed
  | secondary _ failed => exact readable'.canonicalize_fault hasName' failed
  | @alignment graph other canonical canonical' failed =>
      have formed := FlowGraph.check_wellFormed (Function.canonicalize_check canonical)
      have formed' := FlowGraph.check_wellFormed (Function.canonicalize_check canonical')
      obtain ⟨matcher, processed, ready⟩ := Align.process_ready options other formed.nonempty
      rw [Align.align_of_process options processed] at failed
      rcases Align.compute_path options formed formed' ready with
        ⟨steps, _, result⟩ | ⟨_, cause, ⟨row, column, rfl⟩, result⟩
      · rw [failed] at result
        cases result
      · rw [failed, Except.error.injEq] at result
        rw [result]
        rfl

/-- Two functions always have a result under their names. It is an error exactly when a stage of the
comparison fails from within. -/
theorem functions_settled :
    ∃ diff, (functions options first second).outcome = .ok diff ∧
      diff.primaryName = name ∧ diff.secondaryName = name' ∧
      (diff.status = .error ↔ ∃ fault, fault.isInternal = true ∧
        Raises options first second fault) := by
  cases aligned : (alignFunctions options first second).outcome with
  | error fault =>
      have raises := alignFunctions_error_iff.mp aligned
      have internal := raises_internal options hasName hasName' readable readable' raises
      refine ⟨.failed name name' (some fault.message), ?_, rfl, rfl, ?_⟩
      · simp only [functions, Logged.outcome_bind, Logged.outcome_attempt, Outcome.ok_bind, aligned,
          internal, if_true, hasName, hasName', Logged.outcome_note, Logged.outcome_pure]
      · exact iff_of_true rfl ⟨fault, internal, raises⟩
  | ok result =>
      obtain ⟨alignment, warnings⟩ := result
      obtain ⟨graph, other, canonical, canonical', found⟩ := alignFunctions_ok aligned
      obtain ⟨_, isCanonical⟩ := Function.exists_canonical canonical
      obtain ⟨_, isCanonical'⟩ := Function.exists_canonical canonical'
      obtain ⟨steps, path, rfl⟩ :=
        Align.align_path options isCanonical.formed isCanonical'.formed found
      obtain ⟨blocks, made⟩ := FunctionDiff.ofAlignment_ok options isCanonical.displayed
        isCanonical'.displayed path name name' warnings
      have compared : (functions options first second).outcome = FunctionDiff.ofAlignment name name'
          (Align.alignmentOf options graph other steps) warnings := by
        simp only [functions, Logged.outcome_bind, Logged.outcome_attempt, Outcome.ok_bind, aligned,
          hasName, hasName', Logged.outcome_liftM]
      refine ⟨_, compared.trans made, rfl, rfl, iff_of_false ?_ ?_⟩
      · simp only [FunctionDiff.status]
        split <;> simp
      · rintro ⟨fault, _, raises⟩
        rw [alignFunctions_error_iff.mpr raises] at aligned
        cases aligned

end Functions

/-- The fault of the first pair that has no result. -/
inductive Stops (options : Options α) : List (Function × Function) → Fault → Prop
  | here {pair rest fault} : (functions options pair.1 pair.2).outcome = .error fault →
      Stops options (pair :: rest) fault
  | later {pair rest diff fault} : (functions options pair.1 pair.2).outcome = .ok diff →
      Stops options rest fault → Stops options (pair :: rest) fault

/-- Pairs of functions with names that can be read all have results. -/
theorem pairs_settled (options : Options α) {pairs : List (Function × Function)}
    (named : ∀ pair ∈ pairs, ∃ name name', pair.1.name.outcome = .ok name ∧
      pair.2.name.outcome = .ok name')
    (readable : ∀ pair ∈ pairs, pair.1.Readable ∧ pair.2.Readable) :
    ∃ diffs, List.Forall₂ (fun pair diff =>
      (functions options pair.1 pair.2).outcome = .ok diff) pairs diffs := by
  have each : ∀ pair ∈ pairs, ∃ diff, (functions options pair.1 pair.2).outcome = .ok diff ∧
      (functions options pair.1 pair.2).outcome = .ok diff := by
    intro pair member
    obtain ⟨name, name', hasName, hasName'⟩ := named pair member
    obtain ⟨diff, compared, _⟩ := functions_settled options hasName hasName'
      (readable pair member).1 (readable pair member).2
    exact ⟨diff, compared, compared⟩
  obtain ⟨diffs, _, settled⟩ := Outcome.mapM_related each
  exact ⟨diffs, settled⟩

end Compare

namespace Session

variable {α : Type} [Quantity α]

/-- The comparison of the functions with one name only. -/
def only (session : Session α) (name : String) : Session α :=
  { session with selection := some { name := name } }

/-- When every pair has a result, the results are those of the pairs in turn. -/
theorem compareAll_results {pairs : List (Function × Function)} {diffs : List (FunctionDiff α)} :
    ∀ (session : Session α), List.Forall₂ (fun pair diff =>
      (Compare.functions session.options pair.1 pair.2).outcome = .ok diff) pairs diffs →
    (compareAll session pairs).1 = { session with results := session.results ++ diffs } ∧
      (compareAll session pairs).2.outcome = .ok () := by
  induction pairs generalizing diffs with
  | nil =>
      intro session settled
      cases settled
      simp [compareAll]
  | cons pair rest ih =>
      intro session settled
      cases settled with
      | @cons _ diff _ others compared later =>
          obtain ⟨after, done⟩ := ih { session with results := session.results ++ [diff] } later
          simp only [compareAll, compared, after, done, List.append_assoc, List.singleton_append,
            and_self]

/-- The first fault of a pair ends the whole comparison. -/
theorem compareAll_stops {options : Options α} {pairs : List (Function × Function)} {fault : Fault}
    (stops : Compare.Stops options pairs fault) :
    ∀ session : Session α, session.options = options →
      (compareAll session pairs).2.outcome = .error fault := by
  induction stops with
  | here failed =>
      rintro session rfl
      simp only [compareAll, failed]
  | later compared _ ih =>
      rintro session rfl
      simp only [compareAll, compared]
      exact ih _ rfl

theorem result_of_pairs {session : Session α} {pairs : List (Function × Function)}
    {diffs : List (FunctionDiff α)} (paired : session.pairs = .ok pairs)
    (settled : List.Forall₂ (fun pair diff =>
      (Compare.functions session.options pair.1 pair.2).outcome = .ok diff) pairs diffs) :
    ∃ diff, session.result.outcome = .ok diff ∧ diff.functions = diffs ∧
      diff.added = ProgramDiff.sortNames session.added ∧
      diff.removed = ProgramDiff.sortNames session.removed := by
  obtain ⟨after, done⟩ := compareAll_results { session with results := [] } settled
  refine ⟨{ session with results := diffs }.diff, ?_, rfl, rfl, rfl⟩
  simp only [result, compute, paired, Logged.outcome_bind, done, Outcome.ok_bind, after,
    List.nil_append, Logged.outcome_pure]

theorem result_of_stops {session : Session α} {pairs : List (Function × Function)} {fault : Fault}
    (paired : session.pairs = .ok pairs) (stops : Compare.Stops session.options pairs fault) :
    session.result.outcome = .error fault := by
  have stopped := compareAll_stops stops { session with results := [] } rfl
  simp only [result, compute, paired, Logged.outcome_bind, stopped, Outcome.error_bind]

omit [Quantity α] in
theorem only_pairs {session : Session α} {name : String} {first second : Function}
    (found : session.primary.get? name = some first)
    (found' : session.secondary.get? name = some second) :
    (session.only name).pairs = .ok [(first, second)] := by
  simp only [pairs, only, Compare.pairs, Compare.selectedPair, Program.find?, Option.getD_none,
    found, found']
  rfl

/-- The entry of a pair that is compared under a name: it has this name, tells of a fault from within
if there was one, and is all that a comparison of this name alone gives. -/
structure Settles (session : Session α) (item : String × Function × Function)
    (entry : FunctionDiff α) : Prop where
  names : entry.primaryName = item.1 ∧ entry.secondaryName = item.1
  failed_iff : entry.status = .error ↔ ∃ fault, fault.isInternal = true ∧
    Compare.Raises session.options item.2.1 item.2.2 fault
  compared : (Compare.functions session.options item.2.1 item.2.2).outcome = .ok entry
  alone : (session.only item.1).result.outcome.map ProgramDiff.functions = .ok [entry]

section Loaded

variable {demangler : Symbol.Demangler} {left right : List RawFunction}
  {leftName rightName : String} {leftFormat rightFormat : Format} {session : Session α}
  (loaded : (Program.load demangler (.empty leftName leftFormat) left).outcome =
    .ok session.primary)
  (loaded' : (Program.load demangler (.empty rightName rightFormat) right).outcome =
    .ok session.secondary)

include loaded loaded'

theorem exists_settled {item : String × Function × Function}
    (found : session.primary.get? item.1 = some item.2.1)
    (found' : session.secondary.get? item.1 = some item.2.2)
    (readable : item.2.1.Readable) (readable' : item.2.2.Readable) :
    ∃ entry, session.Settles item entry := by
  obtain ⟨entry, compared, isName, isName', failed⟩ := Compare.functions_settled session.options
    (Program.name_of_get? loaded found) (Program.name_of_get? loaded' found') readable readable'
  refine ⟨entry, ⟨isName, isName'⟩, failed, compared, ?_⟩
  obtain ⟨diff, done, single, _⟩ := result_of_pairs (only_pairs found found')
    (.cons compared .nil)
  rw [done, ← single]
  rfl

end Loaded

/-- The names of two programs: those that are compared, and those that only the second or only the
first one has. -/
structure Divides (demangler : Symbol.Demangler) (left right : List RawFunction)
    (compared added removed : List String) : Prop where
  rising : Text.Rising compared ∧ Text.Rising added ∧ Text.Rising removed
  apart : (compared ++ added ++ removed).Nodup
  mem_compared : ∀ name, name ∈ compared ↔ Named demangler left name ∧ Named demangler right name
  mem_added : ∀ name, name ∈ added ↔ ¬ Named demangler left name ∧ Named demangler right name
  mem_removed : ∀ name, name ∈ removed ↔ Named demangler left name ∧ ¬ Named demangler right name

/-- What a comparison of two programs by name gives: for every name that both have the first function
with that name on either side, and one entry for each of these pairs, as if it were alone. -/
structure Complete (demangler : Symbol.Demangler) (left right : List RawFunction)
    (leftFormat rightFormat : Format) (session : Session α)
    (matched : List (String × Function × Function)) : Prop where
  pairs_eq : session.pairs = .ok (matched.map Prod.snd)
  names : Divides demangler left right (matched.map Prod.fst) session.added session.removed
  firsts : ∀ item ∈ matched,
    (left.find? (RawFunction.isNamed demangler item.1)).map
      (Function.ofRaw demangler leftFormat) = some item.2.1 ∧
    (right.find? (RawFunction.isNamed demangler item.1)).map
      (Function.ofRaw demangler rightFormat) = some item.2.2
  alone : ∀ item ∈ matched, item.2.1.Readable → item.2.2.Readable →
    ∃ entry, session.Settles item entry
  together : (∀ item ∈ matched, item.2.1.Readable ∧ item.2.2.Readable) →
    ∃ diff, session.result.outcome = .ok diff ∧ diff.added = session.added ∧
      diff.removed = session.removed ∧ List.Forall₂ session.Settles matched diff.functions

section Loaded

variable {demangler : Symbol.Demangler} {left right : List RawFunction}
  {leftName rightName : String} {leftFormat rightFormat : Format} {primary secondary : Program}
  (loaded : (Program.load demangler (.empty leftName leftFormat) left).outcome = .ok primary)
  (loaded' : (Program.load demangler (.empty rightName rightFormat) right).outcome = .ok secondary)

include loaded loaded'

theorem names_divided : Divides demangler left right (Compare.commonNames primary secondary)
    (Compare.missingNames secondary primary) (Compare.missingNames primary secondary) := by
  have distinct := Program.keys_loaded_nodup loaded
  have distinct' := Program.keys_loaded_nodup loaded'
  have common : Text.Rising (Compare.commonNames primary secondary) :=
    ProgramDiff.sortNames_rising (distinct.filter _)
  have added : Text.Rising (Compare.missingNames secondary primary) :=
    ProgramDiff.sortNames_rising (distinct'.filter _)
  have removed : Text.Rising (Compare.missingNames primary secondary) :=
    ProgramDiff.sortNames_rising (distinct.filter _)
  have once {names : List String} (rising : Text.Rising names) : names.Nodup :=
    rising.sorted.imp fun both => both.2
  refine ⟨⟨common, added, removed⟩, ?_, ?_, ?_, ?_⟩
  · rw [List.nodup_append, List.nodup_append]
    refine ⟨⟨once common, once added, ?_⟩, once removed, ?_⟩
    · rintro name isCommon other isAdded rfl
      exact (Compare.mem_missingNames.mp isAdded).2 (Compare.mem_commonNames.mp isCommon).1
    · rintro name isEarlier other isRemoved rfl
      obtain ⟨isPrimary, notSecondary⟩ := Compare.mem_missingNames.mp isRemoved
      rcases List.mem_append.mp isEarlier with isCommon | isAdded
      · exact notSecondary (Compare.mem_commonNames.mp isCommon).2
      · exact (Compare.mem_missingNames.mp isAdded).2 isPrimary
  · intro name
    rw [Compare.mem_commonNames, Program.mem_keys_loaded loaded, Program.mem_keys_loaded loaded']
  · intro name
    rw [Compare.mem_missingNames, Program.mem_keys_loaded loaded, Program.mem_keys_loaded loaded',
      and_comm]
  · intro name
    rw [Compare.mem_missingNames, Program.mem_keys_loaded loaded, Program.mem_keys_loaded loaded']

end Loaded

def plainDemangler : Symbol.Demangler := [("_Z1fv", .name "f()")]

def returning (name : String) (address : Int) : RawFunction :=
  { name := name, address := address
    stream := pure [{ address := address, mnemonic := "ret", text := "ret", flow := .ret }] }

/-- Two functions of one readable name, one that has no instructions and one without a counterpart. -/
def firstBuild : List RawFunction :=
  [returning "_Z1fv" 0, { name := "empty", stream := pure [] }, returning "f()" 8, returning "old" 16]

def secondBuild : List RawFunction :=
  [returning "new" 0, returning "empty" 4, returning "f()" 8]

theorem firstBuild_keys : (Program.load plainDemangler (.empty "p" .x64)
    firstBuild).outcome.toOption.map Program.keys = some ["f()", "empty", "old"] := by
  decide

theorem secondBuild_keys : (Program.load plainDemangler (.empty "q" .x64)
    secondBuild).outcome.toOption.map Program.keys = some ["new", "empty", "f()"] := by
  decide

end Session

end FlowAlign
