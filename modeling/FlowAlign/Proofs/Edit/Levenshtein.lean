import Mathlib.Order.Bounds.Basic
import Mathlib.Order.MinMax

/-!
Edit distance by its plain recursion. It is the least number of changes of all scripts that turn one
sequence into the other, and scripts may be read from either end, so that the recursion holds for the
last symbols as well as for the first ones.
-/

namespace FlowAlign.Edit

variable {β : Type}

/-- A script turns a sequence into another one with a number of changes. -/
inductive Turns : List β → List β → Nat → Prop
  | nil : Turns [] [] 0
  | keep {symbol first second count} : Turns first second count →
      Turns (symbol :: first) (symbol :: second) count
  | substitute {symbol other first second count} : Turns first second count →
      Turns (symbol :: first) (other :: second) (count + 1)
  | insert {other first second count} : Turns first second count →
      Turns first (other :: second) (count + 1)
  | delete {symbol first second count} : Turns first second count →
      Turns (symbol :: first) second (count + 1)

namespace Turns

variable {first second third fourth : List β} {count more : Nat}

theorem append (turns : Turns first second count) (others : Turns third fourth more) :
    Turns (first ++ third) (second ++ fourth) (count + more) := by
  induction turns with
  | nil => rwa [Nat.zero_add]
  | keep _ ih => exact .keep ih
  | substitute _ ih =>
      rw [Nat.add_right_comm]
      exact .substitute ih
  | insert _ ih =>
      rw [Nat.add_right_comm]
      exact .insert ih
  | delete _ ih =>
      rw [Nat.add_right_comm]
      exact .delete ih

theorem reverse (turns : Turns first second count) :
    Turns first.reverse second.reverse count := by
  induction turns with
  | nil => exact .nil
  | @keep symbol _ _ _ _ ih =>
      rw [List.reverse_cons, List.reverse_cons]
      exact ih.append (.keep .nil)
  | @substitute symbol other _ _ _ _ ih =>
      rw [List.reverse_cons, List.reverse_cons]
      exact ih.append (.substitute .nil)
  | @insert other first _ _ _ ih =>
      rw [List.reverse_cons, ← List.append_nil first.reverse]
      exact ih.append (.insert .nil)
  | @delete symbol _ second _ _ ih =>
      rw [List.reverse_cons, ← List.append_nil second.reverse]
      exact ih.append (.delete .nil)

theorem swap (turns : Turns first second count) : Turns second first count := by
  induction turns with
  | nil => exact .nil
  | keep _ ih => exact .keep ih
  | substitute _ ih => exact .substitute ih
  | insert _ ih => exact .delete ih
  | delete _ ih => exact .insert ih

theorem zero_iff : Turns first second 0 ↔ first = second := by
  constructor
  · intro turns
    generalize none' : 0 = count at turns
    induction turns with
    | nil => rfl
    | keep _ ih => rw [ih none']
    | substitute _ _ => cases none'
    | insert _ _ => cases none'
    | delete _ _ => cases none'
  · rintro rfl
    induction first with
    | nil => exact .nil
    | cons symbol first ih => exact .keep ih

end Turns

variable [DecidableEq β]

def levenshtein : List β → List β → Nat
  | [], second => second.length
  | symbol :: first, [] => (symbol :: first).length
  | symbol :: first, other :: second =>
      min (min (levenshtein first (other :: second) + 1)
        (levenshtein first second + if symbol = other then 0 else 1))
        (levenshtein (symbol :: first) second + 1)
termination_by first second => first.length + second.length

@[simp] theorem levenshtein_nil_left (second : List β) : levenshtein [] second = second.length := by
  rw [levenshtein]

@[simp] theorem levenshtein_nil_right (first : List β) : levenshtein first [] = first.length := by
  cases first with
  | nil => rw [levenshtein]
  | cons symbol first => rw [levenshtein]

theorem levenshtein_insert_le (other : β) (first second : List β) :
    levenshtein first (other :: second) ≤ levenshtein first second + 1 := by
  cases first with
  | nil => simp
  | cons symbol first =>
      rw [levenshtein]
      exact min_le_right _ _

theorem levenshtein_delete_le (symbol : β) (first second : List β) :
    levenshtein (symbol :: first) second ≤ levenshtein first second + 1 := by
  cases second with
  | nil => simp
  | cons other second =>
      rw [levenshtein]
      exact (min_le_left _ _).trans (min_le_left _ _)

theorem levenshtein_pair_le (symbol other : β) (first second : List β) :
    levenshtein (symbol :: first) (other :: second) ≤
      levenshtein first second + if symbol = other then 0 else 1 := by
  rw [levenshtein]
  exact (min_le_left _ _).trans (min_le_right _ _)

theorem Turns.levenshtein_le {first second : List β} {count : Nat}
    (turns : Turns first second count) : levenshtein first second ≤ count := by
  induction turns with
  | nil => simp
  | @keep symbol first second _ _ ih =>
      have step := levenshtein_pair_le symbol symbol first second
      rw [if_pos rfl] at step
      omega
  | @substitute symbol other first second _ _ ih =>
      have step := levenshtein_pair_le symbol other first second
      split at step
      · omega
      · omega
  | @insert other first second _ _ ih =>
      have step := levenshtein_insert_le other first second
      omega
  | @delete symbol first second _ _ ih =>
      have step := levenshtein_delete_le symbol first second
      omega

theorem turns_levenshtein (first second : List β) :
    Turns first second (levenshtein first second) := by
  induction first, second using levenshtein.induct with
  | case1 second =>
      rw [levenshtein]
      induction second with
      | nil => exact .nil
      | cons other second ih => exact .insert ih
  | case2 symbol first =>
      rw [levenshtein]
      refine .delete ?_
      induction first with
      | nil => exact .nil
      | cons symbol first ih => exact .delete ih
  | case3 symbol first other second deleted paired inserted =>
      rw [levenshtein]
      rcases min_choice (min (levenshtein first (other :: second) + 1)
          (levenshtein first second + if symbol = other then 0 else 1))
          (levenshtein (symbol :: first) second + 1) with least | least
      · rw [least]
        rcases min_choice (levenshtein first (other :: second) + 1)
            (levenshtein first second + if symbol = other then 0 else 1) with least | least
        · rw [least]
          exact .delete deleted
        · rw [least]
          split
          · rename_i same
            subst same
            exact .keep paired
          · exact .substitute paired
      · rw [least]
        exact .insert inserted

/-- The edit distance is the least number of changes of all scripts. -/
theorem levenshtein_isLeast (first second : List β) :
    IsLeast {count | Turns first second count} (levenshtein first second) :=
  ⟨turns_levenshtein first second, fun _ turns => turns.levenshtein_le⟩

theorem levenshtein_eq_zero {first second : List β} :
    levenshtein first second = 0 ↔ first = second := by
  rw [← Turns.zero_iff]
  constructor
  · intro none'
    have turns := turns_levenshtein first second
    rwa [none'] at turns
  · exact fun turns => Nat.le_zero.mp turns.levenshtein_le

theorem levenshtein_comm (first second : List β) :
    levenshtein first second = levenshtein second first :=
  Nat.le_antisymm (turns_levenshtein second first).swap.levenshtein_le
    (turns_levenshtein first second).swap.levenshtein_le

theorem levenshtein_le_max (first second : List β) :
    levenshtein first second ≤ max first.length second.length := by
  induction first generalizing second with
  | nil => simp
  | cons symbol first ih =>
      cases second with
      | nil => simp
      | cons other second =>
          have paired := levenshtein_pair_le symbol other first second
          have rest := ih second
          simp only [List.length_cons]
          split at paired <;> omega

omit [DecidableEq β] in
/-- The distance depends on which symbols are equal, not on what they are taken for. -/
theorem levenshtein_map_congr {γ δ : Type} [DecidableEq γ] [DecidableEq δ] {label : β → γ}
    {label' : β → δ} (same : ∀ symbol other, label symbol = label other ↔ label' symbol = label' other)
    (first second : List β) :
    levenshtein (first.map label) (second.map label) =
      levenshtein (first.map label') (second.map label') := by
  induction first, second using levenshtein.induct with
  | case1 second => simp
  | case2 symbol first => simp
  | case3 symbol first other second deleted paired inserted =>
      simp only [List.map_cons] at deleted inserted ⊢
      rw [levenshtein, levenshtein, deleted, paired, inserted]
      simp only [same]

theorem levenshtein_reverse (first second : List β) :
    levenshtein first.reverse second.reverse = levenshtein first second := by
  have back := (turns_levenshtein first.reverse second.reverse).reverse.levenshtein_le
  rw [List.reverse_reverse, List.reverse_reverse] at back
  exact Nat.le_antisymm (turns_levenshtein first second).reverse.levenshtein_le back

/-- The recursion read from the end. -/
theorem levenshtein_concat (symbol other : β) (first second : List β) :
    levenshtein (first ++ [symbol]) (second ++ [other]) =
      min (min (levenshtein first (second ++ [other]) + 1)
        (levenshtein first second + if symbol = other then 0 else 1))
        (levenshtein (first ++ [symbol]) second + 1) := by
  have front := levenshtein.eq_3 symbol first.reverse other second.reverse
  simpa only [← List.reverse_concat, levenshtein_reverse, List.concat_eq_append] using front

end FlowAlign.Edit
