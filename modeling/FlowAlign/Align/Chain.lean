/-!
Longest strictly increasing chains. For every length the chain with the smallest last value is kept;
a value extends the longest chain it can and replaces the next one.
-/

namespace FlowAlign.Align

/-- A chain with its last element first; elements are values with their positions. -/
abbrev Chain := List (Int × Nat)

def endsAtLeast (chain : Chain) (value : Int) : Bool :=
  match chain with
  | [] => false
  | (last, _) :: _ => decide (value ≤ last)

/-- Enters an element behind `shorter` in front of the first chain that ends at it or above it. -/
def place (value : Int) (position : Nat) (shorter : Chain) : List Chain → List Chain
  | [] => [(value, position) :: shorter]
  | chain :: longer =>
      if endsAtLeast chain value then ((value, position) :: shorter) :: longer
      else chain :: place value position chain longer

def chainsFrom : Nat → List Chain → List Int → List Chain
  | _, chains, [] => chains
  | position, chains, value :: rest =>
      chainsFrom (position + 1) (place value position [] chains) rest

/-- Positions of a longest strictly increasing chain of values, the one with the smallest last
values. -/
def longestChain (values : List Int) : List Nat :=
  (((chainsFrom 0 [] values).getLastD []).map Prod.snd).reverse

end FlowAlign.Align
