import FlowAlign.Token
import Mathlib.Algebra.Order.Field.Rat
import Mathlib.Algebra.Order.Field.Power
import Mathlib.Tactic.Linarith
import Mathlib.Tactic.Ring

/-!
Equality of literals and tokens by what they stand for. Integers and floating point numbers are equal
when they are the same rational number, whatever their sizes and signs of zero, and keys tell apart
exactly what is not equal in this sense.
-/

namespace FlowAlign

namespace Binary64

/-- A significand of at most 53 bits, with the highest one set unless the exponent is the least. -/
structure Normal (significand : Nat) (exponent : Int) : Prop where
  below : significand < 2 * hiddenBit
  least : -1074 ≤ exponent
  leading : exponent = -1074 ∨ hiddenBit ≤ significand

theorem parts_normal {bits : UInt64} {negative : Bool} {significand : Nat} {exponent : Int}
    (finite : parts bits = .finite negative significand exponent) : Normal significand exponent := by
  simp only [parts] at finite
  split at finite
  · split at finite <;> cases finite
  · split at finite
    · cases finite
      exact ⟨by simp only [hiddenBit]; omega, le_rfl, Or.inl rfl⟩
    · cases finite
      exact ⟨by simp only [hiddenBit]; omega, by omega, Or.inr (by omega)⟩

/-- The word that a number is put together to. -/
def Parts.word : Parts → Nat
  | .finite negative significand exponent =>
      (if negative then signBit else 0) + if significand < hiddenBit then significand
        else (exponent + 1075).toNat * hiddenBit + (significand - hiddenBit)
  | .infinite negative => (if negative then signBit else 0) + 2047 * hiddenBit
  | .notANumber => 0

theorem word_parts {bits : UInt64} (isNumber : parts bits ≠ .notANumber) :
    (parts bits).word = bits.toNat := by
  have sign : (if decide (signBit ≤ bits.toNat) = true then signBit else 0) =
      bits.toNat / signBit * signBit := by
    have bound := bits.toNat_lt
    by_cases negative : signBit ≤ bits.toNat
    · rw [if_pos (decide_eq_true negative)]
      simp only [signBit] at *
      omega
    · rw [if_neg (by simpa using negative), Nat.div_eq_of_lt (Nat.lt_of_not_le negative), Nat.zero_mul]
  by_cases all : bits.toNat / hiddenBit % 2048 = 2047
  · by_cases none' : bits.toNat % hiddenBit = 0
    · simp only [parts, all, none', if_true, Parts.word, sign]
      simp only [signBit, hiddenBit] at *
      omega
    · simp [parts, all, none'] at isNumber
  · by_cases least : bits.toNat / hiddenBit % 2048 = 0
    · have small : bits.toNat % hiddenBit < hiddenBit := Nat.mod_lt _ (by decide)
      simp only [parts, least, Nat.reduceEqDiff, if_true, if_false, Parts.word, small, sign]
      simp only [signBit, hiddenBit] at *
      omega
    · have large : ¬bits.toNat % hiddenBit + hiddenBit < hiddenBit := by omega
      simp only [parts, all, least, if_false, Parts.word, large, sign]
      simp only [signBit, hiddenBit] at *
      omega

theorem parts_inj {bits other : UInt64} (same : parts bits = parts other)
    (isNumber : parts bits ≠ .notANumber) : bits = other := by
  have words := word_parts isNumber
  rw [same, word_parts (same ▸ isNumber)] at words
  exact UInt64.toNat_inj.mp words.symm

/-- A normal form is determined by its product: the one of the smaller exponent cannot be doubled. -/
theorem significand_unique {significand other : Nat} {exponent exponent' : Int}
    (normal : Normal significand exponent) (normal' : Normal other exponent')
    (same : (significand : Rat) * 2 ^ exponent = other * 2 ^ exponent')
    (order : exponent ≤ exponent') : significand = other ∧ exponent = exponent' := by
  obtain ⟨count, rfl⟩ := Int.le.dest order
  have positive : (2 : Rat) ^ exponent ≠ 0 := zpow_ne_zero _ two_ne_zero
  have shifted : significand = other * 2 ^ count := by
    rw [zpow_add₀ two_ne_zero, zpow_natCast, mul_comm ((2 : Rat) ^ exponent), ← mul_assoc] at same
    exact_mod_cast mul_right_cancel₀ positive same
  cases count with
  | zero => simpa using shifted
  | succ count =>
      -- twice a leading bit is too much for the smaller exponent
      have leading : hiddenBit ≤ other := normal'.leading.resolve_left (by have := normal.least; omega)
      have below := normal.below
      have twice : other * 2 ≤ other * 2 ^ (count + 1) := by
        rw [pow_succ]
        exact Nat.mul_le_mul_left _ (Nat.le_mul_of_pos_left 2 (by positivity))
      omega

/-- The rational number that finite parts stand for. -/
def Parts.number? : Parts → Option Rat
  | .finite negative significand exponent =>
      some (if negative then -(significand * 2 ^ exponent) else significand * 2 ^ exponent)
  | .infinite _ => none
  | .notANumber => none

theorem magnitude_nonneg (significand : Nat) (exponent : Int) :
    (0 : Rat) ≤ significand * 2 ^ exponent :=
  mul_nonneg (Nat.cast_nonneg _) (zpow_nonneg zero_le_two _)

/-- Numbers other than zero have one form. -/
theorem number?_inj {bits other : UInt64} {value : Rat} (is : (parts bits).number? = some value)
    (is' : (parts other).number? = some value) (nonzero : value ≠ 0) : bits = other := by
  cases found : parts bits with
  | infinite negative => simp [found, Parts.number?] at is
  | notANumber => simp [found, Parts.number?] at is
  | finite negative significand exponent =>
      cases found' : parts other with
      | infinite negative' => simp [found', Parts.number?] at is'
      | notANumber => simp [found', Parts.number?] at is'
      | finite negative' significand' exponent' =>
          simp only [found, found', Parts.number?, Option.some.injEq] at is is'
          have size := magnitude_nonneg significand exponent
          have size' := magnitude_nonneg significand' exponent'
          have both : negative = negative' ∧
              (significand : Rat) * 2 ^ exponent = significand' * 2 ^ exponent' := by
            cases negative <;> cases negative' <;>
              simp only [Bool.false_eq_true, if_true, if_false] at is is'
            · exact ⟨rfl, by linarith⟩
            · exact absurd (by linarith) nonzero
            · exact absurd (by linarith) nonzero
            · exact ⟨rfl, by linarith⟩
          have normal := parts_normal found
          have normal' := parts_normal found'
          have unique : significand = significand' ∧ exponent = exponent' := by
            rcases le_total exponent exponent' with order | order
            · exact significand_unique normal normal' both.2 order
            · obtain ⟨same, equal⟩ := significand_unique normal' normal both.2.symm order
              exact ⟨same.symm, equal.symm⟩
          refine parts_inj ?_ (by simp [found])
          rw [found, found', both.1, unique.1, unique.2]

/-- A product with a power of two is whole exactly when the power divides the significand. -/
theorem whole_iff (significand : Nat) (value exponent : Int) :
    (significand : Rat) * 2 ^ exponent = value ↔ significand % 2 ^ (-exponent).toNat = 0 ∧
      (significand / (2 ^ (-exponent).toNat : Nat) * (2 ^ exponent.toNat : Nat) : Int) = value := by
  rcases Int.le_total 0 exponent with large | small
  · obtain ⟨count, rfl⟩ := Int.eq_ofNat_of_zero_le large
    have unit : (-(count : Int)).toNat = 0 := by omega
    rw [unit, zpow_natCast, Int.toNat_natCast, pow_zero, Nat.mod_one, Nat.cast_one, Int.ediv_one]
    norm_cast
    simp
  · obtain ⟨count, isCount⟩ := Int.eq_ofNat_of_zero_le (Int.neg_nonneg_of_nonpos small)
    obtain rfl : exponent = -(count : Int) := by omega
    have unit : (-(count : Int)).toNat = 0 := by omega
    have positive : ((2 ^ count : Nat) : Int) ≠ 0 := by positivity
    rw [unit, neg_neg, Int.toNat_natCast, zpow_neg, zpow_natCast, ← div_eq_mul_inv,
      div_eq_iff (by positivity), pow_zero, Nat.cast_one, Int.mul_one,
      show (significand : Rat) = value * 2 ^ count ↔ (significand : Int) = value * (2 ^ count : Nat) by
        norm_cast]
    constructor
    · intro equal
      have divides : ((significand % 2 ^ count : Nat) : Int) = 0 := by
        rw [Int.natCast_emod, equal, Int.mul_emod_left]
      exact ⟨by exact_mod_cast divides, by rw [equal, Int.mul_ediv_cancel _ positive]⟩
    · rintro ⟨divides, rfl⟩
      exact (Int.ediv_mul_cancel (by exact_mod_cast Nat.dvd_of_mod_eq_zero divides)).symm

end Binary64

namespace Literal

theorem wholeValue?_eq_some {bits : UInt64} {value : Int} :
    wholeValue? bits = some value ↔ (Binary64.parts bits).number? = some (value : Rat) := by
  rw [wholeValue?]
  cases Binary64.parts bits with
  | infinite negative => simp [Binary64.Parts.number?]
  | notANumber => simp [Binary64.Parts.number?]
  | finite negative significand exponent =>
      simp only [Binary64.Parts.number?, Nat.pow_eq, Option.ite_none_right_eq_some, Option.some.injEq]
      cases negative with
      | false =>
          simp only [Bool.false_eq_true, if_false]
          exact (Binary64.whole_iff significand value exponent).symm
      | true =>
          have whole := Binary64.whole_iff significand (-value) exponent
          simp only [if_true]
          rw [neg_eq_iff_eq_neg, neg_eq_iff_eq_neg, ← whole, Int.cast_neg]

/-- What a literal stands for. -/
inductive Value where
  | number (value : Rat)
  | infinite (negative : Bool)
  | nan (mark : Nat)
  /-- A not-a-number without a mark, which no operand holds. -/
  | unmarked (bits : UInt64)
  | text (value : String)
  deriving DecidableEq

def value : Literal → Value
  | int value => .number value
  | float bits => match Binary64.parts bits with
      | .finite negative significand exponent =>
          .number (if negative then -(significand * 2 ^ exponent) else significand * 2 ^ exponent)
      | .infinite negative => .infinite negative
      | .notANumber => .unmarked bits
  | nan mark => .nan mark
  | text value => .text value

theorem value_float_eq_number {bits : UInt64} {number : Rat} :
    (float bits).value = .number number ↔ (Binary64.parts bits).number? = some number := by
  simp only [value]
  cases Binary64.parts bits <;> simp [Binary64.Parts.number?]

/-- The keys of whole numbers are the integers. -/
theorem key_eq_int {literal : Literal} {whole : Int} :
    literal.key = .int whole ↔ literal.value = .number whole := by
  cases literal with
  | int number => simp [key, value]
  | nan mark => simp [key, value]
  | text content => simp [key, value]
  | float bits =>
      rw [value_float_eq_number, ← wholeValue?_eq_some, key]
      cases wholeValue? bits <;> simp

theorem key_eq_nan {literal : Literal} {mark : Nat} :
    literal.key = .nan mark ↔ literal.value = .nan mark := by
  cases literal with
  | int number => simp [key, value]
  | nan other => simp [key, value]
  | text content => simp [key, value]
  | float bits => cases whole : wholeValue? bits <;> cases is : Binary64.parts bits <;>
      simp [key, value, whole, is]

theorem key_eq_text {literal : Literal} {content : String} :
    literal.key = .text content ↔ literal.value = .text content := by
  cases literal with
  | int number => simp [key, value]
  | nan mark => simp [key, value]
  | text other => simp [key, value]
  | float bits => cases whole : wholeValue? bits <;> cases is : Binary64.parts bits <;>
      simp [key, value, whole, is]

theorem key_float {bits : UInt64} (fraction : ∀ whole, (float bits).key ≠ .int whole) :
    (float bits).key = .fraction bits := by
  simp only [key] at *
  split
  · rename_i whole isWhole
    exact absurd (by rw [isWhole]) (fraction whole)
  · rfl

/-- Fractions, infinities and the like have one pattern each; zero has two but is whole. -/
theorem value_float_inj {bits other : UInt64} (fraction : ∀ whole, (float bits).key ≠ .int whole)
    (same : (float bits).value = (float other).value) : bits = other := by
  cases found : Binary64.parts bits with
  | finite negative significand exponent =>
      obtain ⟨number, is⟩ : ∃ number, (Binary64.parts bits).number? = some number := by
        simp [found, Binary64.Parts.number?]
      have isFirst := value_float_eq_number.mpr is
      refine Binary64.number?_inj is (value_float_eq_number.mp (same ▸ isFirst)) ?_
      rintro rfl
      exact fraction 0 (key_eq_int.mpr (by rw [isFirst, Int.cast_zero]))
  | infinite negative =>
      have found' : Binary64.parts other = .infinite negative := by
        simp only [value, found] at same
        split at same <;> simp_all
      exact Binary64.parts_inj (found.trans found'.symm) (by simp [found])
  | notANumber =>
      simp only [value, found] at same
      split at same <;> simp_all

/-- Keys are equal exactly when the literals stand for the same. -/
theorem key_eq_iff {first second : Literal} : first.key = second.key ↔ first.value = second.value := by
  cases second with
  | int number => exact key_eq_int
  | nan mark => exact key_eq_nan
  | text content => exact key_eq_text
  | float other =>
      cases first with
      | int number => exact eq_comm.trans (key_eq_int.trans eq_comm)
      | nan mark => exact eq_comm.trans (key_eq_nan.trans eq_comm)
      | text content => exact eq_comm.trans (key_eq_text.trans eq_comm)
      | float bits =>
          constructor
          · intro same
            by_cases whole : ∃ number, (float bits).key = .int number
            · obtain ⟨number, isFirst⟩ := whole
              rw [key_eq_int.mp isFirst, key_eq_int.mp (same ▸ isFirst)]
            · have fraction := not_exists.mp whole
              have fraction' : ∀ number, (float other).key ≠ .int number :=
                fun number isSecond => fraction number (same.trans isSecond)
              rw [key_float fraction, key_float fraction', Key.fraction.injEq] at same
              rw [same]
          · intro same
            by_cases whole : ∃ number, (float bits).key = .int number
            · obtain ⟨number, isFirst⟩ := whole
              rw [isFirst, key_eq_int.mpr (same ▸ key_eq_int.mp isFirst)]
            · rw [value_float_inj (not_exists.mp whole) same]

end Literal

namespace Token

/-- A token by what its literals stand for. -/
structure Value where
  opcode : String
  roles : List Role
  literals : List (Option Literal.Value)
  mnemonic : Option String
  deriving DecidableEq

def value (token : Token) : Value :=
  { opcode := token.opcode
    roles := token.roles
    literals := token.literals.map fun literal => literal.map Literal.value
    mnemonic := token.mnemonic }

theorem literals_eq_iff (first second : List (Option Literal)) :
    (first.map fun literal => literal.map Literal.key) =
        (second.map fun literal => literal.map Literal.key) ↔
      (first.map fun literal => literal.map Literal.value) =
        second.map fun literal => literal.map Literal.value := by
  induction first generalizing second with
  | nil => simp
  | cons literal first ih =>
      cases second with
      | nil => simp
      | cons other second =>
          simp only [List.map_cons, List.cons.injEq, ih]
          cases literal <;> cases other <;> simp [Literal.key_eq_iff]

/-- Tokens with one key are the structurally equal ones. -/
theorem key_eq_iff {first second : Token} : first.key = second.key ↔ first.value = second.value := by
  simp only [key, value, Key.mk.injEq, Value.mk.injEq, literals_eq_iff]

/-- The integer one is the floating point one, and minus zero is zero. -/
example :
    ({ opcode := "PUSH", literals := [some (.int 1), some (.float 0x8000000000000000)] } : Token).same
      { opcode := "PUSH", literals := [some (.float 0x3FF0000000000000), some (.int 0)] } = true := by
  decide +kernel

end Token

end FlowAlign
