import FlowAlign.CommandLine.Settings
import FlowAlign.Load.Program
import FlowAlign.Report.Save

/-!
The command: compares the functions of two files and prints or saves the result. The exit code is 2
for wrong usage, 3 when an input cannot be used or there is nothing to compare, 4 for a right-hand
name alone, 5 when some pair could not be compared, and 0 otherwise.
-/

namespace FlowAlign.CommandLine

/-- Where the command runs: files, programs that are in memory already, by path, and tools. -/
structure Workspace where
  files : Files
  programs : List (String × List RawFunction) := []
  toolkit : Toolkit := {}

inductive Ending where
  | misused
  | exit (code : Nat) (output : Output) (files : Files)
  | broken (fault : Fault)

structure Result where
  level : Level := .warning
  notes : List Note := []
  ending : Ending

def loadProgram (workspace : Workspace) (path : Path) (format : Format) : Reading Program := do
  match workspace.programs.lookup path.text with
  | some functions =>
      Program.load (← get).demangler (.empty path.text format) (← Load.reread functions)
  | none => Load.program workspace.files path format

def tell (left : Note) : Reading Unit :=
  (Logged.note left : Logged Fault Unit)

def compareFiles (workspace : Workspace) (settings : Settings) : Reading (ProgramDiff Float) := do
  tell (.info s!"[+] Loading primary: {settings.primary.text}")
  let primary ← loadProgram workspace settings.primary settings.format
  tell (.info s!"[+] Loading secondary: {settings.secondary.text}")
  let secondary ← loadProgram workspace settings.secondary settings.format
  let selection ← Selection.ofNames settings.name settings.rightName
  let session : Session Float :=
    { primary := primary, secondary := secondary, selection := selection
      options := settings.options }
  session.result

/-- Prints a result, or saves it to the output file. Both fail on a text that has no bytes. -/
def publish (files : Files) (settings : Settings) (diff : ProgramDiff Float) :
    Logged Fault (Output × Files) := do
  let output := diff.render settings.outputFormat
  match settings.output with
  | none =>
      discard (savedBytes output.text)
      return (output, files)
  | some path =>
      if files.isPresent path then Logged.note (.info s!"Overwriting file {path.text}")
      let (saved, outcome) := overwrite files path (.ok output.text)
      outcome
      Logged.note (.info s!"[+] Diff successfully saved to: {path.text}")
      return ({ output with text := "" }, saved)

def conclude (files : Files) (settings : Settings) (diff : ProgramDiff Float) :
    Logged Fault Ending := do
  let (output, saved) ← publish files settings diff
  let failures := diff.errors.length
  if failures = 0 then return .exit 0 output saved
  else
    Logged.note (.error s!"{failures} function pair(s) could not be compared")
    return .exit 5 output saved

def compareAndReport (workspace : Workspace) (settings : Settings) : Logged Fault Ending := do
  if settings.rightName.isSome && settings.name.isNone then
    Logged.note (.error "Right-hand function provided, but left is missing (use --name)")
    return .exit 4 {} workspace.files
  else
    let settings ← settings.checked
    let compared := (compareFiles workspace settings).run workspace.toolkit
    match ← compared.attempt with
    | .ok (diff, _) => conclude workspace.files settings diff
    | .error fault =>
        if fault.isInputProblem then
          Logged.note (.error fault.message)
          return .exit 3 {} workspace.files
        else Logged.fail fault

def versionText : String := "main, version 0.3.0\n"

def formatDescription : String :=
  "\n    Enum of the supported input formats. Every member but ``llvm_bitcode``\n" ++
  "    designates machine code of one architecture inside an ELF, MachO, PE or\n" ++
  "    archive container.\n    "

def formatTable : Item :=
  .table "Supported formats" "" ["Format", "Synonyms", "Description"]
    (Format.all.map fun format =>
      let synonyms := format.synonyms.filter fun synonym => synonym ≠ format.tag
      { cells := [format.tag, ", ".intercalate synonyms, formatDescription] })

def eagerOutput : Key → Output
  | .version => { text := versionText }
  | _ => { items := [formatTable] }

def run (workspace : Workspace) (arguments : List String) : Result :=
  match Arguments.parse arguments with
  | .error _ => { ending := .misused }
  | .ok parsed =>
      match parsed.eager? with
      | some key => { ending := .exit 0 (eagerOutput key) workspace.files }
      | none =>
          match Settings.ofArguments workspace.files parsed with
          | .error (.badName fault) => { ending := .broken (.file fault) }
          | .error _ => { ending := .misused }
          | .ok settings =>
              let done := compareAndReport workspace settings
              { level := settings.verbosity.level
                notes := done.notes
                ending := match done.outcome with
                  | .ok ending => ending
                  | .error fault => .broken fault }

end FlowAlign.CommandLine
