import FlowAlign.Image.Extent
import FlowAlign.Image.Memory
import FlowAlign.Table

/-!
Parsed object files, and the functions that are cut out of them. Parsing the containers themselves
is left to a reader; this is what it reports.
-/

namespace FlowAlign

structure Section where
  name : String := ""
  segmentName : String := ""
  address : Int := 0
  virtualSize : Int := 0
  size : Int := 0
  content : Bytes := []

namespace Section

/-- Size in memory, which may be larger than that of the content. -/
def extent (part : Section) : Int :=
  max part.virtualSize part.size

end Section

structure ObjectSymbol where
  name : String := ""
  value : Int := 0
  size : Int := 0
  /-- Index of its section in an ELF file, with special values. -/
  sectionIndex : Int := 1
  isFunction : Bool := true
  /-- Number of its section in a MachO file, from one on. -/
  sectionNumber : Int := 1
  description : Int := 0

structure Relocation where
  address : Int
  symbol : Option String
  sectionName : Option String

structure ExportEntry where
  name : String := ""
  address : Int
  isForwarded : Bool := false

structure Image where
  sections : List Section := []
  symbols : List ObjectSymbol := []
  relocations : List Relocation := []
  exports : Option (List ExportEntry) := none
  base : Int := 0

structure FunctionSlice where
  name : String := "f"
  /-- Address of the first byte, relative to the section in objects. -/
  address : Int := 0
  content : Bytes := []
  thumb : Bool := false
  relocations : List (Int × String) := []
  symbols : List (Int × String) := []
  archiveMember : Option String := none
  memory : MemoryMap := {}

end FlowAlign
