import FlowAlign.Bitcode.Value
import FlowAlign.Image.Basic
import FlowAlign.Machine.Decoded
import FlowAlign.Symbol

/-!
The tools that reading programs relies on, given by their answers: object file and bitcode readers
answer in the order in which they are asked, decoder and demangler by what they are asked.
-/

namespace FlowAlign

structure Toolkit where
  demangler : Symbol.Demangler := []
  decoder : Machine.Decoder := []
  /-- Next answers of the object file reader; nothing for a file it cannot parse. -/
  images : List (Option Image) := []
  modules : List Bitcode.Module := []
  marks : Nat := 0

abbrev Reading := StateT Toolkit (Logged Fault)

namespace Toolkit

def nextImage : Reading (Option Image) :=
  modifyGet fun toolkit =>
    match toolkit.images with
    | [] => (none, toolkit)
    | image :: rest => (image, { toolkit with images := rest })

def nextModule : Reading Bitcode.Module :=
  modifyGet fun toolkit =>
    match toolkit.modules with
    | [] => (.error "no module", toolkit)
    | parsed :: rest => (parsed, { toolkit with modules := rest })

/-- Literal of the bits of a number; every not-a-number is a literal of its own. -/
def literalOfBits (bits : UInt64) : Reading Literal :=
  modifyGet fun toolkit =>
    match Binary64.parts bits with
    | .notANumber => (.nan toolkit.marks, { toolkit with marks := toolkit.marks + 1 })
    | _ => (.float bits, toolkit)

def demangle (name : String) : Reading String := do
  Symbol.demangle (← get).demangler name

end Toolkit

end FlowAlign
