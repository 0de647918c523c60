import FlowAlign.Image.Bytes
import FlowAlign.Position
import FlowAlign.Text.CodePoint

/-!
Extents of symbols without a size: each one reaches up to the next symbol of its section, the last
one up to the end of the section.
-/

namespace FlowAlign.Extent

structure Mark where
  address : Int
  name : String
  thumb : Bool
  deriving DecidableEq

structure Range where
  mark : Mark
  content : Bytes
  deriving DecidableEq

/-- Order of symbols: by address, then by name, then Thumb code last. -/
def le (first second : Mark) : Bool :=
  if first.address = second.address then
    if first.name = second.name then !first.thumb || second.thumb
    else Text.le first.name second.name
  else decide (first.address ≤ second.address)

def nextAddress? (marks : List Mark) (address : Int) : Option Int :=
  ((marks.map Mark.address).filter fun other => decide (address < other)).min?

/-- Symbols in order with their bytes, in a section with a start and a content. -/
def sizedByNext (marks : List Mark) (start : Int) (content : Bytes) : List Range :=
  (marks.mergeSort le).map fun mark =>
    let stop := (nextAddress? marks mark.address).getD (start + content.length)
    { mark := mark, content := Position.slice content (mark.address - start) (stop - start) }

end FlowAlign.Extent
