import FlowAlign.Program
import FlowAlign.Report.Result

/-!
Which functions of two programs are compared. Functions are paired by readable name, or the two
functions with given names are.
-/

namespace FlowAlign

structure Selection where
  name : String
  rightName : Option String := none

/-- A selection from optional names; a second name needs a first one. -/
def Selection.ofNames (name rightName : Option String) : Except Fault (Option Selection) :=
  match name, rightName with
  | none, some _ => .error (.request .rightNameAlone)
  | none, none => .ok none
  | some name, rightName => .ok (some { name := name, rightName := rightName })

namespace Compare

def selectedPair (primary secondary : Program) (selection : Selection) :
    Except Fault (Function × Function) :=
  let rightName := selection.rightName.getD selection.name
  match primary.find? selection.name, secondary.find? rightName with
  | none, none => .error (.noFunctions .either (some selection.name))
  | none, some _ => .error (.noFunctions .left (some selection.name))
  | some _, none => .error (.noFunctions .right (some rightName))
  | some left, some right => .ok (left, right)

def commonNames (primary secondary : Program) : List String :=
  ProgramDiff.sortNames (primary.keys.filter secondary.contains)

/-- Names of the functions of the first program that the second does not have, in order. -/
def missingNames (primary secondary : Program) : List String :=
  ProgramDiff.sortNames (primary.keys.filter fun name => !secondary.contains name)

def commonPairs (primary secondary : Program) : List (Function × Function) :=
  (commonNames primary secondary).filterMap fun name => do
    return (← primary.get? name, ← secondary.get? name)

def pairs (primary secondary : Program) (selection : Option Selection) :
    Except Fault (List (Function × Function)) :=
  match selection with
  | some selection => (selectedPair primary secondary selection).map fun pair => [pair]
  | none =>
      if (commonNames primary secondary).isEmpty then .error (.noFunctions .either none)
      else .ok (commonPairs primary secondary)

/-- Functions of the second program only; a selection leaves none. -/
def added (primary secondary : Program) (selection : Option Selection) : List String :=
  if selection.isSome then [] else missingNames secondary primary

/-- Functions of the first program only; a selection leaves none. -/
def removed (primary secondary : Program) (selection : Option Selection) : List String :=
  if selection.isSome then [] else missingNames primary secondary

end Compare

end FlowAlign
