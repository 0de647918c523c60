import FlowAlign.Image.Bytes
import FlowAlign.Position

/-! The mapped sections of a linked image. -/

namespace FlowAlign

/-- Bytes at an address; the size may exceed them. -/
structure Segment where
  address : Int
  size : Int
  content : Bytes
  deriving DecidableEq

/-- Mapped sections. A relocatable object has none. -/
structure MemoryMap where
  segments : List Segment := []
  deriving DecidableEq

namespace MemoryMap

/-- Least value taken for an address; below it there are plain constants. -/
def leastAddress : Int := 0x10000

def isAddress (memory : MemoryMap) (value : Int) : Bool :=
  decide (leastAddress ≤ value) && memory.segments.any fun segment =>
    decide (segment.address ≤ value) && decide (value < segment.address + segment.size)

def holds (segment : Segment) (address size : Int) : Bool :=
  let offset := address - segment.address
  decide (0 ≤ offset) && decide (offset + size ≤ segment.content.length)

def read (memory : MemoryMap) (address size : Int) : Option Bytes :=
  (memory.segments.find? fun segment => holds segment address size).map fun segment =>
    let offset := address - segment.address
    Position.slice segment.content offset (offset + size)

end MemoryMap

end FlowAlign
