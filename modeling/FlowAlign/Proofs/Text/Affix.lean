import FlowAlign.Text.Affix
import FlowAlign.Text.Case

/-!
Endings that are taken off a text, and texts in lower case: whether a text is in lower case is a matter of
its characters one by one, so it stays so with more of them.
-/

namespace FlowAlign.Text

theorem endsWith_iff {text ending : String} :
    endsWith text ending = true ↔ ending.toList <:+ text.toList :=
  List.isSuffixOf_iff_suffix

theorem endsWith_append (text ending : String) : endsWith (text ++ ending) ending = true := by
  rw [endsWith_iff, String.toList_append]
  exact List.suffix_append _ _

/-- Endings of one length exclude each other. -/
theorem endsWith_append_iff {text ending other : String}
    (even : other.toList.length = ending.toList.length) :
    endsWith (text ++ ending) other = true ↔ other = ending := by
  constructor
  · intro found
    rw [endsWith_iff, String.toList_append] at found
    have inside : other.toList <:+ ending.toList :=
      List.suffix_of_suffix_length_le found (List.suffix_append _ _) (Nat.le_of_eq even)
    exact String.toList_injective (inside.eq_of_length even)
  · rintro rfl
    exact endsWith_append text other

theorem removeEnding_append (text ending : String) : removeEnding ending (text ++ ending) = text := by
  rw [removeEnding, if_pos (endsWith_append text ending), String.toList_append, List.length_append,
    Nat.add_sub_cancel, List.take_left, String.ofList_toList]

theorem removeEnding_of_not_endsWith {text ending : String} (other : endsWith text ending = false) :
    removeEnding ending text = text := by
  simp [removeEnding, other]

theorem startsWith_append {text start : String} (starts : startsWith text start = true)
    (rest : String) : startsWith (text ++ rest) start = true := by
  rw [startsWith, List.isPrefixOf_iff_prefix] at starts ⊢
  rw [String.toList_append]
  exact starts.trans (List.prefix_append _ _)

theorem startsWithAny_either (starts others : List String) (text : String) :
    startsWithAny (starts ++ others) text = (startsWithAny starts text || startsWithAny others text) :=
  List.any_append

theorem startsWithAny_append {starts : List String} {text : String}
    (begins : startsWithAny starts text = true) (rest : String) :
    startsWithAny starts (text ++ rest) = true := by
  obtain ⟨start, known, begins⟩ := List.any_eq_true.mp begins
  exact List.any_eq_true.mpr ⟨start, known, startsWith_append begins rest⟩

/-- A character that stands for itself in lower case, wherever it is. -/
def IsLower (char : Char) : Prop :=
  char.toNat ≠ 0x3A3 ∧ char.toNat ≠ 0x130 ∧ Char.ofNat (shifted lowerShifts char.toNat) = char

instance (char : Char) : Decidable (IsLower char) :=
  inferInstanceAs (Decidable (_ ∧ _))

/-- A code point that no row of a table covers stays as it is. -/
theorem shifted_eq_self {table : List (Nat × Nat × Nat × Int)} {point : Nat}
    (apart : ∀ row ∈ table, point < row.1 ∨ row.2.1 < point) : shifted table point = point := by
  unfold shifted
  split
  · next low high _ _ found =>
      have inside := List.find?_some found
      have outside : point < low ∨ high < point := apart _ (List.mem_of_find?_eq_some found)
      simp only [Bool.and_eq_true, decide_eq_true_eq] at inside
      omega
  · rfl

set_option maxRecDepth 4000 in
theorem lowerShifts_apart : ∀ row ∈ lowerShifts, 65 ≤ row.1 ∧ (row.2.1 ≤ 90 ∨ 192 ≤ row.1) := by
  decide

/-- Of the characters up to the first accented letter, only capitals have a lower case. -/
theorem isLower_of_small {char : Char}
    (small : char.toNat < 65 ∨ 90 < char.toNat ∧ char.toNat < 192) : IsLower char := by
  refine ⟨by omega, by omega, ?_⟩
  rw [shifted_eq_self fun row member => ?_, Char.ofNat_toNat]
  have bounds := lowerShifts_apart row member
  omega

theorem length_le_lowerFrom (before text : List Char) :
    text.length ≤ (lowerFrom before text).length := by
  induction text generalizing before with
  | nil => exact Nat.zero_le _
  | cons char rest ih =>
      rw [lowerFrom, List.length_append, List.length_cons]
      have later := ih (char :: before)
      split
      · split <;> simp <;> omega
      · split <;> simp <;> omega

theorem lowerFrom_eq_self_iff (before text : List Char) :
    lowerFrom before text = text ↔ ∀ char ∈ text, IsLower char := by
  induction text generalizing before with
  | nil => simp [lowerFrom]
  | cons char rest ih =>
      rw [List.forall_mem_cons, ← ih (char :: before), lowerFrom, IsLower]
      by_cases sigma : char.toNat = 0x3A3
      · refine iff_of_false ?_ fun both => both.1.1 sigma
        intro same
        rw [if_pos sigma] at same
        split at same
        · rw [← (List.cons.inj same).1] at sigma
          exact absurd sigma (by decide)
        · rw [← (List.cons.inj same).1] at sigma
          exact absurd sigma (by decide)
      · by_cases dotted : char.toNat = 0x130
        · refine iff_of_false ?_ fun both => both.1.2.1 dotted
          intro same
          have lengths := congrArg List.length same
          have later := length_le_lowerFrom (char :: before) rest
          rw [if_neg sigma, if_pos dotted, List.length_append, List.length_cons, List.length_cons,
            List.length_cons, List.length_nil] at lengths
          omega
        · simp [sigma, dotted]

theorem lower_eq_self_iff (text : String) : lower text = text ↔ ∀ char ∈ text.toList, IsLower char := by
  rw [← lowerFrom_eq_self_iff [], ← String.toList_inj, lower, String.toList_ofList]

theorem lower_append_eq_self {first second : String} (isLower : lower first = first)
    (isLower' : lower second = second) : lower (first ++ second) = first ++ second := by
  rw [lower_eq_self_iff] at *
  rw [String.toList_append]
  exact List.forall_mem_append.mpr ⟨isLower, isLower'⟩

end FlowAlign.Text
