import FlowAlign.Decimal.Layout
import FlowAlign.Text.Quoted

/-!
Literals of operands and tokens. Integers and floating point numbers of the same value are the same
literal; a not-a-number is the same as itself only, which its mark records.
-/

namespace FlowAlign

inductive Literal where
  | int (value : Int)
  | float (bits : UInt64)
  | nan (mark : Nat)
  | text (value : String)
  deriving DecidableEq

namespace Literal

/-- What two literals have in common exactly when they are the same. -/
inductive Key where
  | int (value : Int)
  | fraction (bits : UInt64)
  | nan (mark : Nat)
  | text (value : String)
  deriving DecidableEq

def wholeValue? (bits : UInt64) : Option Int :=
  match Binary64.parts bits with
  | .finite negative significand exponent =>
      let unit := Nat.pow 2 (-exponent).toNat
      if significand % unit = 0 then
        let size : Int := significand / unit * Nat.pow 2 exponent.toNat
        some (if negative then -size else size)
      else none
  | _ => none

def key : Literal → Key
  | int value => .int value
  | float bits => match wholeValue? bits with
      | some value => .int value
      | none => .fraction bits
  | nan mark => .nan mark
  | text value => .text value

def renumber (offset : Nat) : Literal → Literal
  | nan mark => nan (mark + offset)
  | literal => literal

/-- Display form: quotes around text, numbers as in results. -/
def display : Literal → String
  | int value => toString value
  | float bits => Decimal.Layout.result.render bits
  | nan _ => "nan"
  | text value => Text.quote value

end Literal

end FlowAlign
