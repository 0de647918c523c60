import FlowAlign.Code.Build
import FlowAlign.Table

/-!
Functions as flat streams of instructions. A stream is decoded and a name is made readable on demand,
which may leave notes or fail; of two instructions at one address the last one counts, at the place
of the first.
-/

namespace FlowAlign

structure Function where
  rawName : String
  name : Logged Fault String
  address : Int
  format : Format
  labels : List (Int × String) := []
  stream : Logged Fault (List Instruction)

namespace Function

/-- One instruction for every address, in the order in which the addresses first occur. -/
def keyed (stream : List Instruction) : List Instruction :=
  (Table.collect (stream.map fun instruction => (instruction.address, instruction))).map Prod.snd

def body (function : Function) : Logged Fault (List Instruction) := do
  return keyed (← function.stream)

def labelTable (function : Function) : List (Int × String) :=
  Table.collect function.labels

def at? (body : List Instruction) (address : Int) : Option Instruction :=
  body.find? fun instruction => instruction.address = address

def describe (function : Function) : Logged Fault String := do
  let name ← function.name
  return s!"<Function: {name}>"

def canonicalize (function : Function) : Logged Fault FlowGraph := do
  let body ← function.body
  Logged.leave (Code.splitNotes body)
  let name ← function.name
  Code.build name (Code.split body) function.format.family function.labels function.address

end Function

end FlowAlign
