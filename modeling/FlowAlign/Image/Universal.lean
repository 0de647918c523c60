import FlowAlign.Image.Header

/-! Universal files: several MachO files in one, each for a processor type. -/

namespace FlowAlign.Universal

structure Slice where
  cpuType : Nat
  content : Bytes
  deriving DecidableEq

structure Layout where
  word : Nat
  entry : Nat

def layout (data : Bytes) : Layout :=
  if data.startsWith Magic.wideFat then { word := 8, entry := 32 } else { word := 4, entry := 20 }

def sliceAt (data : Bytes) (layout : Layout) (offset : Nat) : Except Fault Slice := do
  if data.length < offset + layout.entry then throw (.data .cutShort)
  let cpuType ← data.field .big 4 offset
  let start ← data.field .big layout.word (offset + 8)
  let size ← data.field .big layout.word (offset + 8 + layout.word)
  return { cpuType := cpuType, content := (data.drop start).take size }

/-- Slices of a number of entries from an offset on. A fault ends the list. -/
def slicesFrom (data : Bytes) (layout : Layout) : Nat → Nat → List (Except Fault Slice)
  | 0, _ => []
  | count + 1, offset =>
      match sliceAt data layout offset with
      | .error fault => [.error fault]
      | .ok slice => .ok slice :: slicesFrom data layout count (offset + layout.entry)

/-- Slices of a universal file, in order. A fault ends the list. -/
def slices (data : Bytes) : List (Except Fault Slice) :=
  match data.field .big 4 4 with
  | .error fault => [.error fault]
  | .ok count => slicesFrom data (layout data) count 8

/-- The first slice whose code is of a format, nothing when there is none. -/
def pick (format : Format) : List (Except Fault Slice) → Except Fault (Option Slice)
  | [] => .ok none
  | .error fault :: _ => .error fault
  | .ok slice :: rest =>
      if Architecture.ofMacho? slice.cpuType = some format then .ok (some slice)
      else pick format rest

def maxNesting : Nat := 980

/-- The file of a format inside of at most so many nested universal files. -/
def unwrapFrom (format : Format) (description : String) : Nat → Bytes → Except Fault Bytes
  | 0, _ => .error (.data .tooDeep)
  | fuel + 1, data =>
      if FileKind.ofBytes data = .fatMacho then
        match pick format (slices data) with
        | .error fault => .error fault
        | .ok none => .error (.mismatch none (.notInUniversal format description))
        | .ok (some slice) => unwrapFrom format description fuel slice.content
      else .ok data

/-- The file of a format inside of universal files, which may be nested. A file that contains itself
has none. -/
def unwrap (format : Format) (description : String) (data : Bytes) : Except Fault Bytes :=
  unwrapFrom format description maxNesting data

end FlowAlign.Universal
