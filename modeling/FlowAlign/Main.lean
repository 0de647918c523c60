import FlowAlign.CommandLine.Console
import FlowAlign.CommandLine.Run

/-! The command line program. -/

namespace FlowAlign.CommandLine

def readNode (text : String) : IO (Option FileNode) := do
  try
    let content ← IO.FS.readBinFile text
    return some (.file content.toList)
  catch
    | .noFileOrDirectory .. => return none
    | _ => return some .directory

/-- The files that arguments name, and the directories on the way to them. -/
def readFiles (arguments : List String) : IO Files := do
  let paths := arguments.flatMap fun text => (Path.ofText text).beginnings
  let nodes ← paths.mapM fun path => do
    return (← readNode path.text).map fun node => (Files.placeOf path, node)
  return { entries := nodes.filterMap id }

def namedFiles (arguments : List String) : List String :=
  match Arguments.parse arguments with
  | .ok parsed => parsed.arguments ++ (parsed.value? .output).toList
  | .error _ => []

def writeOutput (arguments : List String) (files : Files) : IO Unit := do
  if let .ok parsed := Arguments.parse arguments then
    if let some text := parsed.value? .output then
      if let .ok content := files.read (Path.ofText text) then
        IO.FS.writeBinFile text (ByteArray.mk content.toArray)

/-- Runs the command on the files of the disk, and gives its exit code. -/
def execute (arguments : List String) : IO UInt32 := do
  let files ← readFiles (namedFiles arguments)
  let result := run { files := files } arguments
  for note in Note.shown result.level.rank result.notes do
    IO.eprintln (note.level.name ++ " " ++ note.text)
  match result.ending with
  | .misused =>
      IO.eprintln "usage: [options] <primary file> <secondary file>"
      return 2
  | .exit code output saved =>
      IO.print output.lines
      if code = 0 || code = 5 then writeOutput arguments saved
      return UInt32.ofNat code
  | .broken fault =>
      IO.eprintln fault.message
      return 1

end FlowAlign.CommandLine

def main (arguments : List String) : IO UInt32 :=
  FlowAlign.CommandLine.execute arguments
