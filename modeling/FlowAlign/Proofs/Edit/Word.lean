import FlowAlign.Edit.Word
import FlowAlign.Proofs.Edit.Table

/-!
Distances of sequences of words. Their table has a row for every beginning of the first sequence and a
column for every beginning of the second one, its cells are the edit distances of these, and no script
makes fewer changes than the distance says.
-/

namespace FlowAlign.Edit

structure Tabulates {β : Type} [DecidableEq β] (primary secondary : List β)
    (table : List (List Int)) : Prop where
  height : table.length = primary.length + 1
  width : ∀ row ∈ table, row.length = secondary.length + 1
  cells : ∀ row ≤ primary.length, ∀ column ≤ secondary.length,
    ∃ entries, table[row]? = some entries ∧
      entries[column]? = some (levenshtein (primary.take row) (secondary.take column) : Int)

theorem rows_tabulates {β : Type} [DecidableEq β] (primary secondary : List β) :
    Tabulates primary secondary (rows primary secondary) := by
  constructor
  · rw [rows_eq, List.length_map, List.length_inits]
  · intro row isRow
    rw [rows_eq] at isRow
    obtain ⟨before, _, rfl⟩ := List.mem_map.mp isRow
    exact length_distances before secondary
  · intro row rowInside column columnInside
    exact ⟨_, getElem?_rows secondary rowInside, getElem?_distances _ columnInside⟩

theorem all_isWord {codes : List Int} (words : ∀ code ∈ codes, -2 ^ 63 ≤ code ∧ code < 2 ^ 63) :
    codes.all isWord = true := by
  rw [List.all_eq_true]
  intro code member
  obtain ⟨lower, upper⟩ := words code member
  simp only [isWord, Bool.and_eq_true, decide_eq_true_eq]
  omega

theorem word_levenshtein (primary secondary : List Int)
    (words : ∀ code ∈ secondary, -2 ^ 63 ≤ code ∧ code < 2 ^ 63) :
    (∃ table, wordRows primary secondary = .ok table ∧ Tabulates primary secondary table) ∧
    wordDistance primary secondary = .ok (levenshtein primary secondary) ∧
    IsLeast {count | Turns primary secondary count} (levenshtein primary secondary) := by
  have accepted := all_isWord words
  refine ⟨⟨rows primary secondary, ?_, rows_tabulates primary secondary⟩, ?_,
    levenshtein_isLeast primary secondary⟩
  · rw [wordRows, if_pos accepted]
  · rw [wordDistance, if_pos (by simp [accepted]), distance_eq]

def extremeCodes : List Int := [0x7FFFFFFFFFFFFFFF, 5, -0x8000000000000000]

def fewerCodes : List Int := [5, -0x8000000000000000]

theorem word_levenshtein_extremes :
    wordRows extremeCodes fewerCodes = .ok [[0, 1, 2], [1, 1, 2], [2, 1, 2], [3, 2, 1]] ∧
    (∃ table, wordRows extremeCodes fewerCodes = .ok table ∧
      Tabulates extremeCodes fewerCodes table) ∧
    wordDistance extremeCodes fewerCodes = .ok (levenshtein extremeCodes fewerCodes) ∧
    IsLeast {count | Turns extremeCodes fewerCodes count} (levenshtein extremeCodes fewerCodes) := by
  refine ⟨rfl, ?_⟩
  exact word_levenshtein extremeCodes fewerCodes (by decide)

end FlowAlign.Edit
