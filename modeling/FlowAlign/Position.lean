import FlowAlign.Fault

/-! Positions in lists given by any integer: a negative one counts from the end. -/

namespace FlowAlign.Position

def resolve (length : Nat) (index : Int) : Except Fault Nat :=
  if 0 ≤ index ∧ index < length then .ok index.toNat
  else if index < 0 ∧ 0 ≤ index + length then .ok (index + length).toNat
  else .error (.data .outOfRange)

def pick {β : Type} (items : List β) (index : Int) : Except Fault β := do
  match items[← resolve items.length index]? with
  | some item => return item
  | none => throw (.data .outOfRange)

/-- Bound of a slice: a negative one counts from the end, and none leaves the list. -/
def bound (length : Nat) (index : Int) : Nat :=
  if index < 0 then (index + length).toNat else min index.toNat length

def slice {β : Type} (items : List β) (start stop : Int) : List β :=
  (items.take (bound items.length stop)).drop (bound items.length start)

end FlowAlign.Position
