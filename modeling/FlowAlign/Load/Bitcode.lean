import FlowAlign.Bitcode.Function
import FlowAlign.Load.Native

/-! Functions of bitcode files and of archives of bitcode files. -/

namespace FlowAlign.Load

/-- Functions from a number on; declarations are left out. -/
def definitionsFrom : Nat → List Bitcode.FunctionValue → Reading (List RawFunction)
  | _, [] => pure []
  | index, function :: rest => do
      if function.isDeclaration then definitionsFrom index rest
      else
        let first ← Bitcode.rawFunction function index
        let others ← definitionsFrom (index + 1) rest
        return first :: others

def moduleFunctions (description : String) : Reading (List RawFunction) := do
  match ← Toolkit.nextModule with
  | .error reason => throw (.unsupportedBitcode none description (Text.trim reason))
  | .ok functions =>
      let found ← definitionsFrom 0 functions
      (Logged.note (.debug s!"Loaded {found.length} functions from {description}") :
        Logged Fault Unit)
      return found

/-- Functions of an archive member; members that are no bitcode are skipped. -/
def memberModule (found : Archive.Member) : Reading (List RawFunction) := do
  if FileKind.ofBytes found.content ≠ .bitcode then
    (Logged.note (.debug s!"Skipping non bitcode archive member {found.name}") :
      Logged Fault Unit)
    return []
  else moduleFunctions s!"archive member {found.name}"

def contentModules (data : Bytes) : Reading (List RawFunction) :=
  match FileKind.ofBytes data with
  | .bitcode => moduleFunctions "the file"
  | .archive => overMembers memberModule (Archive.members data)
  | .unknown => throw (.input none .notBitcode)
  | kind => throw (.mismatch none (.nativeFound kind))

def bitcodeFunctions (files : Files) (path : Path) : Reading (List RawFunction) := do
  let data ← readInput files path
  located path (contentModules data)

end FlowAlign.Load
