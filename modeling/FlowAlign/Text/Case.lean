import FlowAlign.Text.CaseTable
import FlowAlign.Text.Ranges

/-!
Lower case and case folding of whole texts. Both follow the full mappings: a character may become
several, and a capital sigma at the end of a word becomes the final small sigma.
-/

namespace FlowAlign.Text

/-- The single code point a table of shifts gives, the point itself when none applies. -/
def shifted (table : List (Nat × Nat × Nat × Int)) (point : Nat) : Nat :=
  match table.find? fun (low, high, stride, _) =>
      decide (low ≤ point) && decide (point ≤ high) && (point - low) % stride == 0 with
  | some (_, _, _, offset) => (point + offset).toNat
  | none => point

/-- Whether the next character that is not skipped has case. -/
def continuesWord (text : List Char) : Bool :=
  match text.find? fun char => !inRanges caseIgnorableRanges char.toNat with
  | some char => inRanges casedRanges char.toNat
  | none => false

/-- Lower case of the rest of a text, given the characters before it in reverse. -/
def lowerFrom : List Char → List Char → List Char
  | _, [] => []
  | before, char :: rest =>
      let image :=
        if char.toNat = 0x3A3 then
          if continuesWord before && !continuesWord rest then [Char.ofNat 0x3C2]
          else [Char.ofNat 0x3C3]
        else if char.toNat = 0x130 then ['i', Char.ofNat 0x307]
        else [Char.ofNat (shifted lowerShifts char.toNat)]
      image ++ lowerFrom (char :: before) rest

def lower (text : String) : String :=
  String.ofList (lowerFrom [] text.toList)

def foldChar (char : Char) : List Char :=
  match foldExpansions.lookup char.toNat with
  | some points => points.map Char.ofNat
  | none => [Char.ofNat (shifted foldShifts char.toNat)]

def fold (text : String) : String :=
  String.ofList (text.toList.flatMap foldChar)

end FlowAlign.Text
