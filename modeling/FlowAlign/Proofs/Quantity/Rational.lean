import FlowAlign.Quantity.Instances
import Mathlib.Algebra.Order.Ring.Rat
import Mathlib.Tactic.Linarith
import Mathlib.Tactic.Ring

/-! The operations of exact rationals as quantities are those of the field. -/

namespace FlowAlign.Quantity

@[simp] theorem rat_whole (count : Nat) : (whole count : Rat) = count :=
  rfl

@[simp] theorem rat_add (first second : Rat) :
    @HAdd.hAdd Rat Rat Rat (@instHAdd Rat Quantity.toAdd) first second = first + second :=
  rfl

@[simp] theorem rat_sub (first second : Rat) :
    @HSub.hSub Rat Rat Rat (@instHSub Rat Quantity.toSub) first second = first - second :=
  rfl

@[simp] theorem rat_mul (first second : Rat) :
    @HMul.hMul Rat Rat Rat (@instHMul Rat Quantity.toMul) first second = first * second :=
  rfl

@[simp] theorem rat_div (first second : Rat) :
    @HDiv.hDiv Rat Rat Rat (@instHDiv Rat Quantity.toDiv) first second = first / second :=
  rfl

@[simp] theorem rat_le (first second : Rat) : le first second = decide (first ≤ second) :=
  rfl

@[simp] theorem rat_least (first second : Rat) : least first second = min first second := by
  change (if first < second then first else second) = min first second
  split
  · rename_i less
    exact (min_eq_left (le_of_lt less)).symm
  · rename_i notLess
    exact (min_eq_right (not_lt.mp notLess)).symm

@[simp] theorem rat_magnitude (value : Rat) : magnitude value = |value| := by
  change (if value < 0 then -value else value) = |value|
  split
  · rename_i negative
    exact (abs_of_neg negative).symm
  · rename_i notNegative
    exact (abs_of_nonneg (not_lt.mp notNegative)).symm

theorem rat_tolerance_pos : (0 : Rat) < tolerance := by
  change (0 : Rat) < mkRat 1 1000000000
  decide

theorem rat_tolerance_lt_half : (tolerance : Rat) < 1 / 2 := by
  change mkRat 1 1000000000 < 1 / 2
  norm_num [Rat.mkRat_eq_div]

theorem rat_tolerance_lt_one : (tolerance : Rat) < 1 :=
  lt_trans rat_tolerance_lt_half (by norm_num)

theorem rat_near (first second : Rat) :
    near first second = true ↔ |first - second| ≤ tolerance := by
  simp [near]

theorem rat_near_self (value : Rat) : near value value = true := by
  rw [rat_near, sub_self, abs_zero]
  exact rat_tolerance_pos.le

theorem rat_not_near {first second : Rat} (below : first + tolerance < second) :
    near first second = false := by
  rw [Bool.eq_false_iff, ne_eq, rat_near, not_le]
  refine lt_of_lt_of_le ?_ (neg_le_abs _)
  linarith

end FlowAlign.Quantity
