import FlowAlign.Image.Basic
import FlowAlign.Image.Header
import FlowAlign.Logged
import FlowAlign.Text.Affix

/-! Functions of parsed ELF, MachO and PE files. -/

namespace FlowAlign.Image

/-- An address without its lowest bit, which marks Thumb code. -/
def clearThumbBit (format : Format) (value : Int) : Int :=
  if format = .arm32 then value - value % 2 else value

def hasThumbBit (format : Format) (value : Int) : Bool :=
  format = .arm32 && decide (value % 2 = 1)

/-- Relocations with a symbol and a section, by the name of the section. -/
def patches (image : Image) : List (String × (Int × String)) :=
  image.relocations.filterMap fun relocation => do
    let symbol ← relocation.symbol
    let place ← relocation.sectionName
    if symbol.isEmpty || !image.sections.any (fun part => part.name = place) then none
    else return (place, (relocation.address, symbol))

def patchesOf (image : Image) (part : Section) : List (Int × String) :=
  Table.collect ((image.patches.filter fun patch => patch.1 = part.name).map Prod.snd)

def firstSpecialIndex : Int := 0xff00

def isDefinedFunction (image : Image) (symbol : ObjectSymbol) : Bool :=
  symbol.isFunction && !symbol.name.isEmpty && symbol.sectionIndex ≠ 0 &&
    decide (symbol.sectionIndex < firstSpecialIndex) &&
    decide (symbol.sectionIndex < image.sections.length)

def sizedSymbols (image : Image) : List ObjectSymbol :=
  (image.symbols.filter image.isDefinedFunction).filter fun symbol => symbol.size ≠ 0

def unsizedNotes (image : Image) : List Note :=
  ((image.symbols.filter image.isDefinedFunction).filter fun symbol => symbol.size = 0).map
    fun symbol => .debug s!"Skipping function `{symbol.name}` without size"

/-- The mapped sections of a linked ELF file; others have no address. -/
def elfMemory (image : Image) : MemoryMap :=
  { segments := (image.sections.filter fun part => part.address ≠ 0).map fun part =>
      { address := part.address, size := part.size, content := part.content } }

/-- Slice of a function of an ELF file, nothing when it leaves its section. -/
def elfSlice (image : Image) (format : Format) (relocatable : Bool) (symbol : ObjectSymbol) :
    Logged Fault (Option FunctionSlice) := do
  let part ← Position.pick image.sections symbol.sectionIndex
  let address := clearThumbBit format symbol.value
  let start := address - part.address
  if start < 0 ∨ part.content.length < start + symbol.size then
    Logged.note (.warning s!"Function `{symbol.name}` lies outside of its section, skipped")
    return none
  let patches := if relocatable then image.patchesOf part else []
  return some
    { name := symbol.name
      address := address
      content := Position.slice part.content start (start + symbol.size)
      thumb := hasThumbBit format symbol.value
      relocations := patches.filter fun patch =>
        decide (address ≤ patch.1) && decide (patch.1 < address + symbol.size)
      symbols := if relocatable then [] else Table.collect (image.sizedSymbols.map fun other =>
        (clearThumbBit format other.value, other.name))
      memory := if relocatable then {} else image.elfMemory }

def relocatableType : Nat := 1

def elfFunctions (image : Image) (data : Bytes) (format : Format) :
    Logged Fault (List FunctionSlice) := do
  let endian := (Architecture.elfEndian? data).getD .big
  let type ← data.field endian 2 16
  Logged.leave image.unsizedNotes
  let slices ← image.sizedSymbols.mapM (elfSlice image format (type = relocatableType))
  return slices.filterMap id

def isMachoCode (part : Section) : Bool :=
  part.segmentName = "__TEXT" && part.name = "__text"

def isMachoThumb (description : Int) : Bool :=
  decide (description / 8 % 2 = 1)

/-- Symbol in the code of a MachO file, with the number of its section. -/
def machoMark (image : Image) (format : Format) (symbol : ObjectSymbol) :
    Except Fault (Option (Int × Extent.Mark)) := do
  let number := symbol.sectionNumber
  if symbol.name.isEmpty || number = 0 || decide (image.sections.length < number) then return none
  let part ← Position.pick image.sections (number - 1)
  if !isMachoCode part then return none
  return some (number,
    { address := symbol.value, name := symbol.name
      thumb := format = .arm32 && isMachoThumb symbol.description })

def isTemporary (name : String) : Bool :=
  Text.startsWithAny ["ltmp", "L"] name

def withoutUnderscore (name : String) : String :=
  if Text.startsWith name "_" then Text.dropStart 1 name else name

def machoMemory (image : Image) : MemoryMap :=
  { segments := image.sections.map fun part =>
      { address := part.address, size := part.size, content := part.content } }

def machoSlices (image : Image) (part : Section) (marks : List Extent.Mark) : List FunctionSlice :=
  let symbols := Table.collect (marks.map fun mark => (mark.address, mark.name))
  let ranges := (Extent.sizedByNext marks part.address part.content).filter fun range =>
    !isTemporary range.mark.name && !range.content.isEmpty
  ranges.map fun range =>
    { name := withoutUnderscore range.mark.name
      address := range.mark.address
      content := range.content
      thumb := range.mark.thumb
      symbols := symbols
      memory := image.machoMemory }

def machoFunctions (image : Image) (format : Format) : Except Fault (List FunctionSlice) := do
  let marks ← image.symbols.mapM (machoMark image format)
  let slices ← (Table.group (marks.filterMap id)).mapM fun (number, group) => do
    return image.machoSlices (← Position.pick image.sections (number - 1)) group
  return slices.flatten

def namedSections (image : Image) : List Section :=
  (Table.collect (image.sections.map fun part => (part.name, part))).map Prod.snd

def peMark? (image : Image) (format : Format) (entry : ExportEntry) :
    Option (String × Extent.Mark) := do
  if entry.name.isEmpty || entry.isForwarded then none
  else
    let address := clearThumbBit format entry.address
    let part ← image.namedSections.find? fun part =>
      decide (part.address ≤ address) && decide (address < part.address + part.extent)
    return (part.name, { address := address, name := entry.name, thumb := format = .arm32 })

def peMemory (image : Image) : MemoryMap :=
  { segments := image.namedSections.map fun part =>
      { address := image.base + part.address, size := part.extent, content := part.content } }

def peSlices (image : Image) (part : Section) (marks : List Extent.Mark) : List FunctionSlice :=
  let symbols := Table.collect (marks.map fun mark => (image.base + mark.address, mark.name))
  let ranges := (Extent.sizedByNext marks part.address part.content).filter fun range =>
    !range.content.isEmpty
  ranges.map fun range =>
    { name := range.mark.name
      address := image.base + range.mark.address
      content := range.content
      thumb := range.mark.thumb
      symbols := symbols
      memory := image.peMemory }

def peFunctions (image : Image) (format : Format) : List FunctionSlice :=
  match image.exports with
  | none => []
  | some entries =>
      (Table.group (entries.filterMap (image.peMark? format))).flatMap fun (name, marks) =>
        match image.namedSections.find? fun part => part.name = name with
        | some part => image.peSlices part marks
        | none => []

end FlowAlign.Image
