import FlowAlign.Proofs.CommandLine.Comparison
import FlowAlign.Proofs.Files
import FlowAlign.Proofs.Report.Output

/-!
How the command ends. A right-hand name alone is turned down before anything is loaded. A program
that cannot be loaded, or nothing to compare, leaves no output and no trace in the files. Otherwise
all results are shown, and the exit code says whether a pair failed from within. Two things break off
a comparison that has begun: a function that cannot be decoded, and a surrogate in comma separated
values.
-/

namespace FlowAlign.CommandLine

/-- Number that the command gives back; a fault without a diagnosis ends it with one. -/
def Ending.code : Ending → Nat
  | misused => 2
  | exit code _ _ => code
  | broken _ => 1

/-- What is printed and what the files are when an output is shown: all of it is printed, or its text
becomes the content of a file. -/
def Publishes (files : Files) (path : Option Path) (shown : Output) (bytes : List UInt8)
    (printed : Output) (saved : Files) : Prop :=
  match path with
  | none => printed = shown ∧ saved = files
  | some path => printed = { shown with text := "" } ∧ files.write path bytes = .ok saved

/-- How a result is reported: every pair in full, in an output that is published as a whole. Only
comma separated values may have no bytes, which breaks the report off. -/
structure Reports (workspace : Workspace) (settings : Settings) (diff : ProgramDiff Float)
    (ending : Ending) : Prop where
  tells : ∀ entry ∈ diff.functions,
    (diff.render settings.outputFormat).Tells entry settings.outputFormat
  encoded : ∀ bytes, Text.encodeUtf8? (diff.render settings.outputFormat).text = some bytes →
    ∃ printed saved, ending = .exit
        (if ∃ entry ∈ diff.functions, entry.status = .error then 5 else 0) printed saved ∧
      Publishes workspace.files settings.output (diff.render settings.outputFormat) bytes printed
        saved
  unencoded : Text.encodeUtf8? (diff.render settings.outputFormat).text = none →
    settings.outputFormat = .csv ∧ ending = .broken (.data .unencodable)

section Reporting

variable {files : Files} {settings : Settings} {diff : ProgramDiff Float}

theorem savedBytes_encoded {text : String} {bytes : List UInt8}
    (encoded : Text.encodeUtf8? text = some bytes) : savedBytes text = .ok bytes := by
  rw [savedBytes, encoded]

theorem savedBytes_unencoded {text : String} (unencoded : Text.encodeUtf8? text = none) :
    savedBytes text = .error (.data .unencodable) := by
  rw [savedBytes, unencoded]

theorem overwrite_encoded {path : Path} {text : String} {opened : Files} {bytes : List UInt8}
    (isOpened : files.write path [] = .ok opened)
    (encoded : Text.encodeUtf8? text = some bytes) :
    ∃ saved, overwrite files path (.ok text) = (saved, .ok ()) ∧
      files.write path bytes = .ok saved := by
  obtain ⟨saved, written, atOnce⟩ := Files.write_write isOpened bytes
  refine ⟨saved, ?_, atOnce⟩
  unfold overwrite
  simp only [isOpened, Except.bind, savedBytes_encoded encoded, written]

theorem overwrite_unencoded {path : Path} {text : String} {opened : Files}
    (isOpened : files.write path [] = .ok opened)
    (unencoded : Text.encodeUtf8? text = none) :
    (overwrite files path (.ok text)).2 = .error (.data .unencodable) := by
  unfold overwrite
  simp only [isOpened, Except.bind, savedBytes_unencoded unencoded]

theorem publish_printed (toConsole : settings.output = none) :
    (publish files settings diff).outcome =
      (savedBytes (diff.render settings.outputFormat).text >>= fun _ =>
        .ok (diff.render settings.outputFormat, files)) := by
  simp only [publish, toConsole, Logged.outcome_bind]
  cases savedBytes (diff.render settings.outputFormat).text with
  | error fault => rfl
  | ok bytes => rfl

theorem publish_saved {path : Path} (toFile : settings.output = some path) :
    (publish files settings diff).outcome =
      ((overwrite files path (.ok (diff.render settings.outputFormat).text)).2 >>= fun _ =>
        .ok ({ diff.render settings.outputFormat with text := "" },
          (overwrite files path (.ok (diff.render settings.outputFormat).text)).1)) := by
  simp only [publish, toFile]
  -- the note about a file that is replaced is all that the branches differ in
  split <;> simp only [Logged.outcome_bind, Logged.outcome_note, Outcome.ok_bind,
    Logged.outcome_liftM, Logged.outcome_pure]

variable (writable : ∀ path, settings.output = some path →
  ∃ opened, files.write path [] = .ok opened)

include writable

theorem publish_encoded {bytes : List UInt8}
    (encoded : Text.encodeUtf8? (diff.render settings.outputFormat).text = some bytes) :
    ∃ printed saved, (publish files settings diff).outcome = .ok (printed, saved) ∧
      Publishes files settings.output (diff.render settings.outputFormat) bytes printed saved := by
  cases destination : settings.output with
  | none =>
      refine ⟨diff.render settings.outputFormat, files, ?_, rfl, rfl⟩
      rw [publish_printed destination, savedBytes_encoded encoded, Outcome.ok_bind]
  | some path =>
      obtain ⟨opened, isOpened⟩ := writable path destination
      obtain ⟨saved, overwritten, atOnce⟩ := overwrite_encoded isOpened encoded
      refine ⟨{ diff.render settings.outputFormat with text := "" }, saved, ?_, rfl, atOnce⟩
      rw [publish_saved destination, overwritten, Outcome.ok_bind]

theorem publish_unencoded
    (unencoded : Text.encodeUtf8? (diff.render settings.outputFormat).text = none) :
    (publish files settings diff).outcome = .error (.data .unencodable) := by
  cases destination : settings.output with
  | none =>
      rw [publish_printed destination, savedBytes_unencoded unencoded, Outcome.error_bind]
  | some path =>
      obtain ⟨opened, isOpened⟩ := writable path destination
      rw [publish_saved destination, overwrite_unencoded isOpened unencoded, Outcome.error_bind]

theorem conclude_encoded {bytes : List UInt8}
    (encoded : Text.encodeUtf8? (diff.render settings.outputFormat).text = some bytes) :
    ∃ printed saved, (conclude files settings diff).outcome = .ok (.exit
        (if ∃ entry ∈ diff.functions, entry.status = .error then 5 else 0) printed saved) ∧
      Publishes files settings.output (diff.render settings.outputFormat) bytes printed saved := by
  obtain ⟨printed, saved, published, publishes⟩ := publish_encoded writable encoded
  refine ⟨printed, saved, ?_, publishes⟩
  have failures : diff.errors.length = 0 ↔ ¬ ∃ entry ∈ diff.functions, entry.status = .error := by
    simp [ProgramDiff.errors]
  by_cases failed : ∃ entry ∈ diff.functions, entry.status = .error
  · have counted : diff.errors.length ≠ 0 := fun none' => failures.mp none' failed
    simp only [conclude, Logged.outcome_bind, published, Outcome.ok_bind, if_neg counted,
      if_pos failed, Logged.outcome_note, Logged.outcome_pure]
  · have counted : diff.errors.length = 0 := failures.mpr failed
    simp only [conclude, Logged.outcome_bind, published, Outcome.ok_bind, if_pos counted,
      if_neg failed, Logged.outcome_pure]

theorem conclude_unencoded
    (unencoded : Text.encodeUtf8? (diff.render settings.outputFormat).text = none) :
    (conclude files settings diff).outcome = .error (.data .unencodable) := by
  rw [conclude, Logged.outcome_bind, publish_unencoded writable unencoded, Outcome.error_bind]

end Reporting

theorem Reports.code {workspace : Workspace} {settings : Settings} {diff : ProgramDiff Float}
    {ending : Ending} (reports : Reports workspace settings diff ending) :
    ending.code = 0 ∨ ending.code = 5 ∨ ending.code = 1 := by
  cases encoded : Text.encodeUtf8? (diff.render settings.outputFormat).text with
  | none =>
      rw [(reports.unencoded encoded).2]
      exact Or.inr (Or.inr rfl)
  | some bytes =>
      obtain ⟨printed, saved, rfl, _⟩ := reports.encoded bytes encoded
      simp only [Ending.code]
      split
      · exact Or.inr (Or.inl rfl)
      · exact Or.inl rfl

section Endings

variable {workspace : Workspace} {settings : Settings}

/-- The ending that an outcome of the command stands for. -/
def Ending.ofOutcome : Except Fault Ending → Ending
  | .ok ending => ending
  | .error fault => .broken fault

theorem compareAndReport_alone (alone : settings.RightAlone) :
    compareAndReport workspace settings =
      { notes := [.error "Right-hand function provided, but left is missing (use --name)"]
        outcome := .ok (.exit 4 {} workspace.files) } := by
  obtain ⟨hasRight, noName⟩ := alone
  simp only [compareAndReport, hasRight, noName, Option.isNone_none, Bool.and_self, if_true]
  rfl

theorem compareAndReport_outcome (accompanied : ¬ settings.RightAlone) {options : Options Float}
    (isChecked : (Settings.checkedOptions settings.options).outcome = .ok options) :
    (compareAndReport workspace settings).outcome =
      match compared workspace settings options with
      | .ok diff => (conclude workspace.files settings diff).outcome
      | .error fault => if fault.isInputProblem then .ok (.exit 3 {} workspace.files)
          else .error fault := by
  obtain ⟨others, jobs, areOthers, checked⟩ := settings.checked_outcome
  obtain rfl : options = others := by simpa [isChecked] using areOthers
  have guarded : ¬ (settings.rightName.isSome && settings.name.isNone) = true := by
    simpa [Settings.RightAlone] using accompanied
  -- options and jobs are all that the check changes, so the rest may be read off the old settings
  let used : Settings := { settings with options := options, jobs := jobs }
  have result : ((compareFiles workspace used) workspace.toolkit).outcome.map Prod.fst =
      compared workspace settings options := compareFiles_outcome accompanied
  rw [compareAndReport, if_neg guarded]
  simp only [Logged.outcome_bind, checked, Outcome.ok_bind, Logged.outcome_attempt, StateT.run]
  cases outcome : ((compareFiles workspace used) workspace.toolkit).outcome with
  | ok found =>
      rw [outcome] at result
      rw [← result]
      rfl
  | error fault =>
      rw [outcome] at result
      rw [← result]
      simp only [Except.map]
      split
      · rfl
      · rfl

section Run

variable {arguments : List String} {parsed : Arguments}
  (isParsed : Arguments.parse arguments = .ok parsed) (notEager : parsed.eager? = none)
  (areSettings : Settings.ofArguments workspace.files parsed = .ok settings)

include isParsed notEager areSettings

theorem run_eq : run workspace arguments =
    { level := settings.verbosity.level
      notes := (compareAndReport workspace settings).notes
      ending := .ofOutcome (compareAndReport workspace settings).outcome } := by
  simp only [run, isParsed, notEager, areSettings]
  cases (compareAndReport workspace settings).outcome <;> rfl

theorem run_of_alone (alone : settings.RightAlone) : run workspace arguments =
    { level := settings.verbosity.level
      notes := [.error "Right-hand function provided, but left is missing (use --name)"]
      ending := .exit 4 {} workspace.files } := by
  rw [run_eq isParsed notEager areSettings, compareAndReport_alone alone]
  rfl

theorem ending_eq (accompanied : ¬ settings.RightAlone) {options : Options Float}
    (isChecked : (Settings.checkedOptions settings.options).outcome = .ok options) :
    (run workspace arguments).ending =
      match compared workspace settings options with
      | .ok diff => .ofOutcome (conclude workspace.files settings diff).outcome
      | .error fault => if fault.isInputProblem then .exit 3 {} workspace.files
          else .broken fault := by
  rw [run_eq isParsed notEager areSettings]
  simp only [compareAndReport_outcome accompanied isChecked]
  cases compared workspace settings options with
  | ok diff => rfl
  | error fault =>
      simp only
      split
      · rfl
      · rfl

theorem ending_of_refused (accompanied : ¬ settings.RightAlone)
    (loadable : ∀ fault, loading workspace settings = .error fault → fault.isInputProblem = true)
    (refused : Refused workspace settings) :
    (run workspace arguments).ending = .exit 3 {} workspace.files := by
  obtain ⟨options, _, isChecked, _⟩ := settings.checked_outcome
  obtain ⟨fault, failed, isProblem⟩ := compared_of_refused options refused loadable
  rw [ending_eq isParsed notEager areSettings accompanied isChecked, failed]
  simp only [isProblem, if_true]

theorem ending_of_stops (accompanied : ¬ settings.RightAlone) {options : Options Float}
    {pairs : List (Function × Function)} {fault : Fault}
    (blameless : workspace.Blameless) (compares : Compares workspace settings options pairs)
    (stops : Compare.Stops options pairs fault) :
    (run workspace arguments).ending = .broken fault := by
  have noProblem := stops.blameless compares.named (compares.blameless blameless)
  rw [ending_eq isParsed notEager areSettings accompanied compares.checked,
    compared_of_stops compares stops]
  simp only [noProblem, Bool.false_eq_true, if_false]

/-- A result is reported as a whole. -/
theorem reports_of_compared (accompanied : ¬ settings.RightAlone)
    (writable : ∀ path, settings.output = some path →
      ∃ opened, workspace.files.write path [] = .ok opened)
    {options : Options Float} {diff : ProgramDiff Float}
    (isChecked : (Settings.checkedOptions settings.options).outcome = .ok options)
    (done : compared workspace settings options = .ok diff) :
    Reports workspace settings diff (run workspace arguments).ending := by
  have ending := ending_eq isParsed notEager areSettings accompanied isChecked
  simp only [done] at ending
  refine ⟨fun entry member => diff.render_tells _ member, ?_, ?_⟩
  · intro bytes encoded
    obtain ⟨printed, saved, concluded, publishes⟩ := conclude_encoded writable encoded
    exact ⟨printed, saved, by rw [ending, concluded]; rfl, publishes⟩
  · intro unencoded
    refine ⟨?_, by rw [ending, conclude_unencoded writable unencoded]; rfl⟩
    by_contra other
    obtain ⟨bytes, encoded⟩ := diff.render_encodable other
    rw [unencoded] at encoded
    cases encoded

/-- Only a right-hand name alone ends the command with its code. -/
theorem code_ne_four (accompanied : ¬ settings.RightAlone)
    (writable : ∀ path, settings.output = some path →
      ∃ opened, workspace.files.write path [] = .ok opened) :
    (run workspace arguments).ending.code ≠ 4 := by
  obtain ⟨options, _, isChecked, _⟩ := settings.checked_outcome
  cases done : compared workspace settings options with
  | ok diff =>
      have codes := (reports_of_compared isParsed notEager areSettings accompanied writable isChecked
        done).code
      omega
  | error fault =>
      rw [ending_eq isParsed notEager areSettings accompanied isChecked, done]
      simp only
      split <;> simp [Ending.code]

theorem report_of_settled (accompanied : ¬ settings.RightAlone)
    (writable : ∀ path, settings.output = some path →
      ∃ opened, workspace.files.write path [] = .ok opened)
    {options : Options Float} {pairs : List (Function × Function)}
    {diffs : List (FunctionDiff Float)} (compares : Compares workspace settings options pairs)
    (settled : List.Forall₂ (fun pair entry =>
      (Compare.functions options pair.1 pair.2).outcome = .ok entry) pairs diffs) :
    ∃ diff, diff.functions = diffs ∧
      Reports workspace settings diff (run workspace arguments).ending := by
  obtain ⟨diff, done, functions⟩ := compared_of_settled compares settled
  exact ⟨diff, functions, reports_of_compared isParsed notEager areSettings accompanied writable
    compares.checked done⟩

/-- Only a refusal ends the command with its code. -/
theorem code_ne_three (accompanied : ¬ settings.RightAlone)
    (writable : ∀ path, settings.output = some path →
      ∃ opened, workspace.files.write path [] = .ok opened)
    (accepted : ¬ Refused workspace settings) (blameless : workspace.Blameless) :
    (run workspace arguments).ending.code ≠ 3 := by
  obtain ⟨options, pairs, compares⟩ := exists_compares accepted
  rcases Compare.settled_or_stops options pairs with ⟨diffs, settled⟩ | ⟨fault, stops⟩
  · obtain ⟨_, _, reports⟩ := report_of_settled isParsed notEager areSettings accompanied writable
      compares settled
    have codes := reports.code
    omega
  · rw [ending_of_stops isParsed notEager areSettings accompanied blameless compares stops]
    simp [Ending.code]

theorem exists_report (accompanied : ¬ settings.RightAlone)
    (writable : ∀ path, settings.output = some path →
      ∃ opened, workspace.files.write path [] = .ok opened)
    (accepted : ¬ Refused workspace settings) (decodable : Decodable workspace settings) :
    ∃ options pairs diff, Compares workspace settings options pairs ∧
      List.Forall₂ (fun pair entry =>
        (Compare.functions options pair.1 pair.2).outcome = .ok entry) pairs diff.functions ∧
      Reports workspace settings diff (run workspace arguments).ending := by
  obtain ⟨options, pairs, compares⟩ := exists_compares accepted
  obtain ⟨diffs, settled⟩ := Compare.pairs_settled options compares.named
    (decodable options pairs compares)
  obtain ⟨diff, rfl, reports⟩ := report_of_settled isParsed notEager areSettings accompanied
    writable compares settled
  exact ⟨options, pairs, diff, compares, settled, reports⟩

end Run

end Endings

/-- How the command ends, by what it is asked for and what it finds. -/
structure Concludes (workspace : Workspace) (arguments : List String) (settings : Settings) :
    Prop where
  alone_iff : (run workspace arguments).ending.code = 4 ↔ settings.RightAlone
  alone : settings.RightAlone → ∀ programs toolkit,
    run { workspace with programs := programs, toolkit := toolkit } arguments =
      { level := settings.verbosity.level
        notes := [.error "Right-hand function provided, but left is missing (use --name)"]
        ending := .exit 4 {} workspace.files }
  refused_iff : ¬ settings.RightAlone → workspace.Blameless →
    ((run workspace arguments).ending.code = 3 ↔ Refused workspace settings)
  refused : ¬ settings.RightAlone → Refused workspace settings →
    (run workspace arguments).ending = .exit 3 {} workspace.files
  reported : ¬ settings.RightAlone → ¬ Refused workspace settings → Decodable workspace settings →
    ∃ options pairs diff, Compares workspace settings options pairs ∧
      List.Forall₂ (fun pair entry =>
        (Compare.functions options pair.1 pair.2).outcome = .ok entry) pairs diff.functions ∧
      Reports workspace settings diff (run workspace arguments).ending
  stopped : ¬ settings.RightAlone → workspace.Blameless → ∀ options pairs fault,
    Compares workspace settings options pairs → Compare.Stops options pairs fault →
    (run workspace arguments).ending = .broken fault

section Samples

/-- What is asked for with arguments, when they are used rightly. -/
def asked (workspace : Workspace) (arguments : List String) : Option Settings := do
  let parsed ← (Arguments.parse arguments).toOption
  guard parsed.eager?.isNone
  (Settings.ofArguments workspace.files parsed).toOption

/-- For every pair that is compared whether its functions can be decoded, when it comes to that. -/
def decodings (workspace : Workspace) (settings : Settings) : Option (List (Bool × Bool)) := do
  let (primary, secondary) ← (loading workspace settings).toOption
  let pairs ← (Compare.pairs primary secondary settings.selection).toOption
  return pairs.map fun pair => (pair.1.stream.outcome.isOk, pair.2.stream.outcome.isOk)

/-- Exit code of a run that gives comma separated values, by its comparison alone: the output need not be
put together and taken apart again to find a surrogate in it. -/
def csvCode (workspace : Workspace) (settings : Settings) : Option Nat := do
  let .csv := settings.outputFormat | none
  let options ← (Settings.checkedOptions settings.options).outcome.toOption
  return match compared workspace settings options with
    | .error fault => if fault.isInputProblem then 3 else 1
    | .ok diff =>
        if diff.holdsSurrogate then 1
        else if ∃ entry ∈ diff.functions, entry.status = .error then 5
        else 0

/-- What is seen of a run: the settings it depends on, what can be decoded, and its exit code. -/
def seen (workspace : Workspace) (arguments : List String) :
    Option (Option String × Option Path × List (Bool × Bool) × Nat) := do
  let settings ← asked workspace arguments
  let decoded ← decodings workspace settings
  let code ← csvCode workspace settings
  return (settings.rightName, settings.output, decoded, code)

theorem asked_eq_some {workspace : Workspace} {arguments : List String} {settings : Settings}
    (isAsked : asked workspace arguments = some settings) :
    ∃ parsed, Arguments.parse arguments = .ok parsed ∧ parsed.eager? = none ∧
      Settings.ofArguments workspace.files parsed = .ok settings := by
  obtain ⟨parsed, isParsed, isAsked⟩ := Option.bind_eq_some_iff.mp isAsked
  obtain ⟨_, notEager, isAsked⟩ := Option.bind_eq_some_iff.mp isAsked
  refine ⟨parsed, Outcome.eq_ok_of_toOption isParsed, ?_, Outcome.eq_ok_of_toOption isAsked⟩
  simpa [guard] using notEager

/-- Nothing of the output but its surrogates counts for the exit code. -/
theorem code_eq_csvCode {workspace : Workspace} {arguments : List String} {settings : Settings}
    {code : Nat} (isAsked : asked workspace arguments = some settings)
    (accompanied : ¬ settings.RightAlone)
    (writable : ∀ path, settings.output = some path →
      ∃ opened, workspace.files.write path [] = .ok opened)
    (found : csvCode workspace settings = some code) : (run workspace arguments).ending.code = code := by
  obtain ⟨parsed, isParsed, notEager, areSettings⟩ := asked_eq_some isAsked
  have asCsv : settings.outputFormat = .csv := by
    unfold csvCode at found
    split at found
    · assumption
    · cases found
  simp only [csvCode, asCsv] at found
  obtain ⟨options, isChecked, found⟩ := Option.bind_eq_some_iff.mp found
  rw [ending_eq isParsed notEager areSettings accompanied (Outcome.eq_ok_of_toOption isChecked),
    ← Option.some.inj found]
  cases compared workspace settings options with
  | error fault => simp only; split <;> rfl
  | ok diff =>
      have rendered : (diff.render settings.outputFormat).text = diff.toCsv := by rw [asCsv]; rfl
      cases encoded : Text.encodeUtf8? diff.toCsv with
      | none =>
          have held := diff.toCsv_unencodable_iff.mp encoded
          rw [← rendered] at encoded
          simp only [conclude_unencoded writable encoded, held, if_true]
          rfl
      | some bytes =>
          have clear : ¬ diff.holdsSurrogate = true := by
            rw [← diff.toCsv_unencodable_iff, encoded]
            exact Option.some_ne_none bytes
          rw [← rendered] at encoded
          obtain ⟨printed, saved, concluded, _⟩ := conclude_encoded writable encoded
          simp only [concluded, if_neg clear]
          rfl

theorem seen_eq_some {workspace : Workspace} {arguments : List String} {rightName : Option String}
    {output : Option Path} {decoded : List (Bool × Bool)} {code : Nat}
    (found : seen workspace arguments = some (rightName, output, decoded, code)) :
    ∃ settings, asked workspace arguments = some settings ∧ settings.rightName = rightName ∧
      settings.output = output ∧ decodings workspace settings = some decoded ∧
      csvCode workspace settings = some code := by
  obtain ⟨settings, isAsked, found⟩ := Option.bind_eq_some_iff.mp found
  obtain ⟨others, isDecoded, found⟩ := Option.bind_eq_some_iff.mp found
  obtain ⟨other, isCode, found⟩ := Option.bind_eq_some_iff.mp found
  simp only [Option.pure_def, Option.some.injEq, Prod.mk.injEq] at found
  obtain ⟨right, toOutput, rfl, rfl⟩ := found
  exact ⟨settings, isAsked, right, toOutput, isDecoded, isCode⟩

theorem code_of_seen {workspace : Workspace} {arguments : List String} {decoded : List (Bool × Bool)}
    {code : Nat} (found : seen workspace arguments = some (none, none, decoded, code)) :
    ∃ settings, asked workspace arguments = some settings ∧
      (settings.rightName, settings.output, decodings workspace settings) =
        (none, none, some decoded) ∧
      (run workspace arguments).ending.code = code := by
  obtain ⟨settings, isAsked, noRight, toConsole, isDecoded, isCode⟩ := seen_eq_some found
  refine ⟨settings, isAsked, by rw [noRight, toConsole, isDecoded], ?_⟩
  refine code_eq_csvCode isAsked (by simp [Settings.RightAlone, noRight]) ?_ isCode
  intro path isPath
  rw [toConsole] at isPath
  cases isPath

theorem decodings_eq_some {workspace : Workspace} {settings : Settings}
    {decoded : List (Bool × Bool)} (found : decodings workspace settings = some decoded) :
    ∃ primary secondary pairs, loading workspace settings = .ok (primary, secondary) ∧
      Compare.pairs primary secondary settings.selection = .ok pairs ∧
      decoded = pairs.map fun pair => (pair.1.stream.outcome.isOk, pair.2.stream.outcome.isOk) := by
  obtain ⟨⟨primary, secondary⟩, loaded, found⟩ := Option.bind_eq_some_iff.mp found
  obtain ⟨pairs, paired, found⟩ := Option.bind_eq_some_iff.mp found
  exact ⟨primary, secondary, pairs, Outcome.eq_ok_of_toOption loaded,
    Outcome.eq_ok_of_toOption paired, (Option.some.inj found).symm⟩

theorem readable_of_isOk {function : Function} (decoded : function.stream.outcome.isOk = true) :
    function.Readable := by
  cases outcome : function.stream.outcome with
  | error fault => simp [outcome, Except.isOk, Except.toBool] at decoded
  | ok instructions => exact ⟨instructions, outcome⟩

theorem decodable_of_decodings {workspace : Workspace} {settings : Settings}
    {decoded : List (Bool × Bool)} (found : decodings workspace settings = some decoded)
    (all : ∀ item ∈ decoded, item = (true, true)) :
    Decodable workspace settings ∧ ¬ Refused workspace settings := by
  obtain ⟨primary, secondary, pairs, loaded, paired, rfl⟩ := decodings_eq_some found
  obtain ⟨options, _, isChecked, _⟩ := settings.checked_outcome
  refine ⟨?_, not_refused_of_compares ⟨isChecked, primary, secondary, loaded, paired⟩⟩
  intro _ others compares pair member
  obtain ⟨_, _, loaded', paired'⟩ := compares.paired
  rw [loaded] at loaded'
  cases loaded'
  obtain rfl : pairs = others := by simpa [paired] using paired'
  have both := all _ (List.mem_map_of_mem member)
  rw [Prod.mk.injEq] at both
  exact ⟨readable_of_isOk both.1, readable_of_isOk both.2⟩

def builds : Workspace :=
  { files := .empty
    programs := [("p", Session.firstBuild), ("q", Session.secondBuild)]
    toolkit := { demangler := Session.plainDemangler } }

theorem builds_blameless : builds.Blameless := by
  simp only [Workspace.Blameless, RawFunction.Blameless, builds, Session.firstBuild,
    Session.secondBuild, Session.returning, List.forall_mem_cons]
  simp [Logged.Blameless.pure]

/-- Asks for the one function of the first build that has no instructions. -/
def emptyToFile : List String :=
  ["-fx64", "-n", "empty", "--output-format", "csv", "-o", "out", "p", "q"]

theorem builds_seen :
    seen builds emptyToFile = some (none, some (.ofText "out"), [(true, true)], 5) := by
  decide +kernel

theorem out_opened : (builds.files.write (.ofText "out") []).toOption.map (·.entries.length) =
    some 1 := by
  decide +kernel

/-- A symbol with an escape that decodes to a surrogate. -/
def surrogateSymbol : String := "_ZN8a$ud800$17h0123456789abcdefE"

def surrogate : Workspace :=
  { files := .empty
    programs := [("p", [Session.returning surrogateSymbol 0]),
      ("q", [Session.returning surrogateSymbol 0])]
    toolkit := { demangler := [(surrogateSymbol, .name "a$ud800$::h0123456789abcdef")] } }

def toCsv : List String := ["-fx64", "--output-format", "csv", "p", "q"]

theorem surrogate_seen : seen surrogate toCsv = some (none, none, [(true, true)], 1) := by
  decide +kernel

/-- The header of an object file for AVR processors. -/
def avrObject : Bytes :=
  [0x7f, 0x45, 0x4c, 0x46, 1, 1, 1, 0, 0, 0, 0, 0, 0, 0, 0, 0, 1, 0, 0x53, 0] ++ List.replicate 32 0

/-- A function that calls another one and returns. -/
def calling (callee : String) : Image :=
  { sections := [{}, { name := ".text", content := [0x0e, 0x94, 0, 0, 0x08, 0x95] }]
    symbols := [{ name := "f", size := 6 }]
    relocations := [{ address := 0, symbol := some callee, sectionName := some ".text" }] }

/-- A symbol with an escape beyond all code points. -/
def outsizedSymbol : String := "_ZN10x$u110000$17h0123456789abcdefE"

def badCallee : Workspace :=
  { files := { entries := [(["a.o"], .file avrObject), (["b.o"], .file avrObject)] }
    toolkit :=
      { demangler := [(outsizedSymbol, .name "x$u110000$::h0123456789abcdef")]
        images := [some (calling "g"), some (calling outsizedSymbol)] } }

def objects : List String := ["-f", "avr", "--output-format", "csv", "a.o", "b.o"]

theorem badCallee_seen : seen badCallee objects = some (none, none, [(true, false)], 1) := by
  decide +kernel

end Samples

end FlowAlign.CommandLine
