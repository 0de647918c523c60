import Mathlib
import FlowAlign.Compare.Pairing
import FlowAlign.Proofs.Program

/-!
Which names are compared. The names that both programs have, those of the first one alone and those of
the second one alone are three lists in the order of code points, without a name in two of them.
-/

namespace FlowAlign

namespace Text

theorem le_iff {first second : String} :
    le first second = true ↔ points first ≤ points second := by
  rw [le, Bool.not_eq_true', Bool.eq_false_iff, ne_eq, List.lex_eq_true_iff_lt, not_lt]

/-- A text that spells a sequence of code points. -/
def Spelled (text : String) : Prop :=
  ∃ sequence : List Nat, (∀ point ∈ sequence, point < 0x110000) ∧ ofPoints sequence = text

theorem points_inj {first second : String} (spelled : Spelled first) (spelled' : Spelled second)
    (same : points first = points second) : first = second := by
  obtain ⟨sequence, valid, rfl⟩ := spelled
  obtain ⟨sequence', valid', rfl⟩ := spelled'
  rw [points_ofPoints sequence valid, points_ofPoints sequence' valid'] at same
  rw [same]

/-- Names in strictly rising order. Only texts that spell code points can be told apart by them. -/
structure Rising (names : List String) : Prop where
  sorted : names.Pairwise fun first second => le first second = true ∧ first ≠ second
  strict : (∀ name ∈ names, Spelled name) →
    names.Pairwise fun first second => points first < points second

theorem rising_of_sorted {names : List String}
    (sorted : names.Pairwise fun first second => le first second = true) (distinct : names.Nodup) :
    Rising names := by
  have both := sorted.and distinct
  refine ⟨both, ?_⟩
  intro spelled
  refine both.imp_of_mem ?_
  rintro first second isFirst isSecond ⟨below, apart⟩
  refine lt_of_le_of_ne (le_iff.mp below) ?_
  exact fun same => apart (points_inj (spelled first isFirst) (spelled second isSecond) same)

end Text

namespace ProgramDiff

theorem sortNames_sorted (names : List String) :
    (sortNames names).Pairwise fun first second => Text.le first second = true := by
  refine List.pairwise_mergeSort ?_ ?_ names
  · intro first second third
    simp only [Text.le_iff]
    exact le_trans
  · intro first second
    rw [Bool.or_eq_true, Text.le_iff, Text.le_iff]
    exact le_total _ _

theorem mem_sortNames {names : List String} {name : String} :
    name ∈ sortNames names ↔ name ∈ names :=
  List.mem_mergeSort

theorem sortNames_rising {names : List String} (distinct : names.Nodup) :
    Text.Rising (sortNames names) :=
  Text.rising_of_sorted (sortNames_sorted names) ((List.mergeSort_perm _ _).nodup_iff.mpr distinct)

theorem sortNames_sortNames (names : List String) :
    sortNames (sortNames names) = sortNames names :=
  List.mergeSort_of_pairwise (sortNames_sorted names)

end ProgramDiff

namespace Compare

variable {primary secondary : Program}

theorem mem_commonNames {name : String} :
    name ∈ commonNames primary secondary ↔ name ∈ primary.keys ∧ name ∈ secondary.keys := by
  rw [commonNames, ProgramDiff.mem_sortNames, List.mem_filter, Program.contains_iff]

theorem mem_missingNames {name : String} :
    name ∈ missingNames primary secondary ↔ name ∈ primary.keys ∧ name ∉ secondary.keys := by
  rw [missingNames, ProgramDiff.mem_sortNames, List.mem_filter, Bool.not_eq_true',
    Bool.eq_false_iff, ne_eq, Program.contains_iff]

/-- Every name that is compared stands for the functions that the programs hold under it. -/
theorem commonPairs_related (primary secondary : Program) :
    List.Forall₂ (fun name pair => primary.get? name = some pair.1 ∧
      secondary.get? name = some pair.2)
      (commonNames primary secondary) (commonPairs primary secondary) := by
  have shared : ∀ name ∈ commonNames primary secondary, ∃ first second,
      primary.get? name = some first ∧ secondary.get? name = some second := by
    intro name member
    obtain ⟨isPrimary, isSecondary⟩ := mem_commonNames.mp member
    obtain ⟨first, found⟩ := Program.mem_keys.mp isPrimary
    obtain ⟨second, found'⟩ := Program.mem_keys.mp isSecondary
    exact ⟨first, second, found, found'⟩
  rw [commonPairs]
  generalize commonNames primary secondary = names at shared ⊢
  induction names with
  | nil => exact .nil
  | cons name rest ih =>
      obtain ⟨first, second, found, found'⟩ := shared name List.mem_cons_self
      have later := ih fun other member => shared other (List.mem_cons_of_mem _ member)
      simp only [List.filterMap_cons, found, found', Option.bind_eq_bind, Option.bind_some,
        Option.pure_def]
      exact .cons ⟨found, found'⟩ later

end Compare

end FlowAlign
