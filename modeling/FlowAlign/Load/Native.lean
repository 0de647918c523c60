import FlowAlign.Files
import FlowAlign.Image.Archive
import FlowAlign.Image.Functions
import FlowAlign.Image.Universal
import FlowAlign.Toolkit

/-! Functions of object files and of archives of object files. -/

namespace FlowAlign.Load

def readInput (files : Files) (path : Path) : Except Fault Bytes :=
  (files.read path).mapError fun fault =>
    if fault.isBadName then .file fault else .input (some path.text) (.unreadable fault.message)

/-- Names the file in faults of the input that do not name one. -/
def located {β : Type} (path : Path) (run : Reading β) : Reading β :=
  tryCatch run fun fault => throw (fault.locate path.text)

def imageFunctions (image : Image) (kind : FileKind) (data : Bytes) (format : Format) :
    Logged Fault (List FunctionSlice) :=
  match kind with
  | .elf => image.elfFunctions data format
  | .macho => Logged.ofExcept (image.machoFunctions format)
  | _ => pure (image.peFunctions format)

def checkArchitecture (data : Bytes) (kind : FileKind) (format : Format) (description : String) :
    Except Fault Unit := do
  if kind ∉ [FileKind.elf, .macho, .pe] then
    throw (.input none (.notNative description))
  let found ← (Architecture.ofHeader data kind).mapError (Fault.input none)
  if found ≠ some format then throw (.mismatch none (.otherCode format found description))

def objectFunctions (data : Bytes) (format : Format) (description : String) :
    Reading (List FunctionSlice) := do
  let inner ← Universal.unwrap format description data
  let kind := FileKind.ofBytes inner
  checkArchitecture inner kind format description
  match ← Toolkit.nextImage with
  | none => throw (.input none (.corrupt description))
  | some image => imageFunctions image kind inner format

/-- Functions of an archive member; members of an unknown kind are skipped. -/
def memberFunctions (format : Format) (found : Archive.Member) : Reading (List FunctionSlice) := do
  if FileKind.ofBytes found.content = .unknown then
    (Logged.note (.debug s!"Skipping archive member {found.name}") : Logged Fault Unit)
    return []
  else
    let slices ← objectFunctions found.content format s!"archive member {found.name}"
    return slices.map fun slice => { slice with archiveMember := some found.name }

/-- Results for the members of an archive in turn, up to the first fault. -/
def overMembers {β : Type} (visit : Archive.Member → Reading (List β)) :
    List (Except Fault Archive.Member) → Reading (List β)
  | [] => pure []
  | .error fault :: _ => throw fault
  | .ok found :: rest => do
      let first ← visit found
      let others ← overMembers visit rest
      return first ++ others

def contentFunctions (data : Bytes) (format : Format) : Reading (List FunctionSlice) :=
  match FileKind.ofBytes data with
  | .archive => overMembers (memberFunctions format) (Archive.members data)
  | .bitcode => throw (.mismatch none (.bitcodeFound format))
  | _ => objectFunctions data format "the file"

def nativeFunctions (files : Files) (path : Path) (format : Format) :
    Reading (List FunctionSlice) := do
  let data ← readInput files path
  located path (contentFunctions data format)

end FlowAlign.Load
