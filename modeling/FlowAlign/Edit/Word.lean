import FlowAlign.Edit.Distance
import FlowAlign.Fault

/-! Edit distance of sequences of codes, where the codes of the second one are signed 64-bit words. -/

namespace FlowAlign.Edit

def isWord (value : Int) : Bool :=
  decide (-0x8000000000000000 ≤ value) && decide (value < 0x8000000000000000)

/-- Rows of the distance table; codes that are no words are refused in the second sequence. -/
def wordRows (primary secondary : List Int) : Except Fault (List (List Int)) :=
  if secondary.all isWord then .ok (rows primary secondary) else .error (.data .tooLarge)

/-- Distance of two sequences of codes; an empty sequence needs no table. -/
def wordDistance (primary secondary : List Int) : Except Fault Nat :=
  if primary.isEmpty || secondary.isEmpty || secondary.all isWord then
    .ok (distance primary secondary)
  else .error (.data .tooLarge)

end FlowAlign.Edit
