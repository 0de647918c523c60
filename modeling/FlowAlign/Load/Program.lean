import FlowAlign.Compare.Session
import FlowAlign.Format.Lookup
import FlowAlign.Load.Bitcode
import FlowAlign.Machine.Stream

/-! Programs read from files, and the comparison of two files. -/

namespace FlowAlign

namespace Load

/-- Functions as they are read once more: their not-a-number literals are new ones. -/
def reread (functions : List RawFunction) : Reading (List RawFunction) :=
  modifyGet fun toolkit =>
    (functions.map (RawFunction.renumber toolkit.marks),
      { toolkit with marks := 2 * toolkit.marks })

def functions (files : Files) (path : Path) (format : Format) : Reading (List RawFunction) := do
  if format = .llvmBitcode then bitcodeFunctions files path
  else
    let slices ← nativeFunctions files path format
    let toolkit ← get
    reread (slices.map fun slice =>
      slice.rawFunction toolkit.demangler toolkit.decoder format)

/-- Program in the file at a path. Its name is the last part of the path. -/
def program (files : Files) (path : Path) (format : Format) : Reading Program := do
  let functions ← functions files path format
  Program.load (← get).demangler (.empty path.name format) functions

def describe (program : Program) : String :=
  if program.format = .llvmBitcode then s!"<ProgramBackendBitcode:{program.name}>"
  else s!"<ProgramBackendNative:{program.name}>"

/-- Format that a request names; it must name one. -/
def requestedFormat (name : Option String) : Except Fault Format :=
  match name with
  | some text => Format.ofText text
  | none => .error (.request .noFormat)

end Load

structure FileComparison (α : Type) where
  formatName : Option String
  primary : Path
  secondary : Path
  name : Option String := none
  rightName : Option String := none
  options : Options α

namespace FileComparison

variable {α : Type} [Quantity α]

def run (comparison : FileComparison α) (files : Files) : Reading (ProgramDiff α) := do
  let selection ← Selection.ofNames comparison.name comparison.rightName
  let format ← Load.requestedFormat comparison.formatName
  let primary ← Load.program files comparison.primary format
  let secondary ← Load.program files comparison.secondary format
  let session : Session α :=
    { primary := primary, secondary := secondary, selection := selection
      options := comparison.options }
  session.result

end FileComparison

end FlowAlign
