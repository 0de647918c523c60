import FlowAlign.Decimal.Layout
import FlowAlign.Fault
import FlowAlign.Logged
import FlowAlign.Quantity.Instances

/-! Ranges of parameters. A parameter outside of its range is set to its default with a warning. -/

namespace FlowAlign.CommandLine

structure Range (β : Type) where
  label : String
  default : β
  low : β
  high : Option β := none
  strict : Bool := false

class Ranged (β : Type) where
  le : β → β → Bool
  spell : β → String

instance : Ranged Float where
  le := Quantity.le
  spell := Quantity.spell

instance : Ranged Int where
  le first second := decide (first ≤ second)
  spell value := toString value

namespace Range

variable {β : Type} [Ranged β]

/-- Whether a value lies below a range. What cannot be compared does not. -/
def isBelow (range : Range β) (value : β) : Bool :=
  Ranged.le value range.low && (range.strict || !Ranged.le range.low value)

def accepts (range : Range β) (value : β) : Bool :=
  !range.isBelow value && range.high.all (Ranged.le value)

def describe (range : Range β) : String :=
  let low := Ranged.spell range.low
  match range.high with
  | some high =>
      let top := Ranged.spell high
      s!"within {low}..{top}"
  | none => if range.strict then s!"greater than {low}" else s!"at least {low}"

def check (range : Range β) (value : β) : Logged Fault β := do
  if range.accepts value then return value
  else
    let bounds := range.describe
    let default := Ranged.spell range.default
    Logged.note (.warning s!"[-] {range.label} should be {bounds} (set it to {default})")
    return range.default

end Range

end FlowAlign.CommandLine
