import Mathlib.Tactic.Positivity
import Mathlib.Tactic.Ring
import Mathlib.Tactic.Zify
import FlowAlign.Image.Bytes

/-! Bytes that a number is written in, least significant byte first, and the number they are read as. -/

namespace FlowAlign.Bytes

/-- Least significant bytes of a number. -/
def ofNumber : Nat → Nat → Bytes
  | 0, _ => []
  | width + 1, value => UInt8.ofNat value :: ofNumber width (value / 256)

/-- Bytes of an integer, in two's complement when it is negative. -/
def ofInt (width : Nat) (value : Int) : Bytes :=
  ofNumber width (value % Nat.pow 256 width).toNat

theorem length_ofNumber (width value : Nat) : (ofNumber width value).length = width := by
  induction width generalizing value with
  | zero => rfl
  | succ width ih => rw [ofNumber, List.length_cons, ih]

theorem length_ofInt (width : Nat) (value : Int) : (ofInt width value).length = width :=
  length_ofNumber width _

theorem littleNumber_ofNumber {width value : Nat} (fits : value < 256 ^ width) :
    littleNumber (ofNumber width value) = value := by
  induction width generalizing value with
  | zero =>
      rw [Nat.pow_zero, Nat.lt_one_iff] at fits
      rw [fits]
      rfl
  | succ width ih =>
      have rest : value / 256 < 256 ^ width :=
        Nat.div_lt_of_lt_mul (by rwa [← Nat.pow_succ'])
      have whole : littleNumber (ofNumber (width + 1) value) =
          (UInt8.ofNat value).toNat + 256 * littleNumber (ofNumber width (value / 256)) := rfl
      rw [whole, ih rest, UInt8.toNat_ofNat', Nat.mod_add_div]

theorem littleNumber_ofInt (width : Nat) (value : Int) :
    (littleNumber (ofInt width value) : Int) = value % 256 ^ width := by
  have positive : (0 : Int) < 256 ^ width := by positivity
  have lower := Int.emod_nonneg value (ne_of_gt positive)
  have upper := Int.emod_lt_of_pos value positive
  have power : ((Nat.pow 256 width : Nat) : Int) = 256 ^ width := by simp
  rw [ofInt, power, littleNumber_ofNumber]
  · exact Int.toNat_of_nonneg lower
  · zify
    rwa [Int.toNat_of_nonneg lower]

theorem littleNumber_ofInt_of_fits {width : Nat} {value : Int} (lower : 0 ≤ value)
    (upper : value < 256 ^ width) : (littleNumber (ofInt width value) : Int) = value := by
  rw [littleNumber_ofInt, Int.emod_eq_of_lt lower upper]

/-- A signed number is read back from as many bytes as it fits in. -/
theorem signed_ofInt {width : Nat} {value : Int} (lower : -256 ^ width ≤ 2 * value)
    (upper : 2 * value < 256 ^ width) : signed width (littleNumber (ofInt width value)) = value := by
  have read := littleNumber_ofInt width value
  have power : ((Nat.pow 256 width : Nat) : Int) = 256 ^ width := by simp
  rw [signed]
  zify
  rw [read, power]
  by_cases negative : value < 0
  · have wrapped : value % 256 ^ width = value + 256 ^ width := by
      rw [← Int.add_emod_right, Int.emod_eq_of_lt (by omega) (by omega)]
    rw [wrapped, if_neg (by omega)]
    ring
  · rw [Int.emod_eq_of_lt (by omega) (by omega), if_pos upper]

end FlowAlign.Bytes
