import FlowAlign.Function
import FlowAlign.Symbol

/-!
Programs: functions by readable name, in the order in which they were entered. Of two functions with
one name the first one is kept.
-/

namespace FlowAlign

/-- A function as a reader finds it, before its name is made readable. -/
structure RawFunction where
  name : String
  address : Int := 0
  labels : List (Int × String) := []
  stream : Logged Fault (List Instruction)

def RawFunction.renumber (offset : Nat) (raw : RawFunction) : RawFunction :=
  { raw with stream := do return (← raw.stream).map (Instruction.renumber offset) }

def Function.ofRaw (demangler : Symbol.Demangler) (format : Format) (raw : RawFunction) : Function :=
  { rawName := raw.name
    name := Symbol.demangle demangler raw.name
    address := raw.address
    format := format
    labels := raw.labels
    stream := raw.stream }

structure Program where
  name : String
  format : Format
  functions : List (String × Function)

namespace Program

def empty (name : String) (format : Format) : Program :=
  { name := name, format := format, functions := [] }

def keys (program : Program) : List String :=
  program.functions.map Prod.fst

def size (program : Program) : Nat :=
  program.functions.length

def get? (program : Program) (key : String) : Option Function :=
  program.functions.lookup key

def contains (program : Program) (key : String) : Bool :=
  (program.get? key).isSome

/-- Enters a function under a key, at its old place when the key is taken. -/
def set (program : Program) (key : String) (function : Function) : Program :=
  if program.contains key then
    { program with functions := program.functions.map fun (name, old) =>
        if name = key then (name, function) else (name, old) }
  else { program with functions := program.functions ++ [(key, function)] }

def erase (program : Program) (key : String) : Program :=
  { program with functions := program.functions.filter fun (name, _) => name ≠ key }

def get (program : Program) (key : String) : Except Fault Function :=
  match program.get? key with
  | some function => .ok function
  | none => .error (.data .unknownKey)

def pop (program : Program) (key : String) : Except Fault (Program × Function) := do
  return (program.erase key, ← program.get key)

/-- Function under a key, which is entered first when the key is free. -/
def getOrSet (program : Program) (key : String) (function : Function) : Program × Function :=
  match program.get? key with
  | some known => (program, known)
  | none => (program.set key function, function)

/-- Function with a readable name, or else the first one with that name in the symbol table. -/
def find? (program : Program) (name : String) : Option Function :=
  match program.get? name with
  | some function => some function
  | none => (program.functions.find? fun (_, function) => function.rawName = name).map Prod.snd

def add (program : Program) (function : Function) : Logged Fault Program := do
  let name ← function.name
  match program.get? name with
  | some kept =>
      let address := Text.hex kept.address
      Logged.note (.warning (s!"Duplicate function `{name}` in {program.name}, " ++
        s!"keeping the one at {address}"))
      return program
  | none => return program.set name function

def load (demangler : Symbol.Demangler) (program : Program) :
    List RawFunction → Logged Fault Program
  | [] => pure program
  | raw :: rest => do
      load demangler (← program.add (Function.ofRaw demangler program.format raw)) rest

def describe (program : Program) : String :=
  s!"<Program:{program.name}>"

end Program

end FlowAlign
