import FlowAlign.Proofs.Edit.Script
import FlowAlign.Token

/-!
Scripts of token sequences are as short as can be. They take the positions of both sequences in order,
say of every pair whether its tokens are the same, and make as many changes as the edit distance says. An
insertion is therefore never next to a deletion, since a pair of the two positions takes one change at
most.
-/

namespace FlowAlign.Edit

variable {β : Type}

theorem Step.row?_move (step : Step) : step.move.row? = step.primary? := by
  cases step <;> rfl

theorem Step.column?_move (step : Step) : step.move.column? = step.secondary? := by
  cases step <;> rfl

theorem changes_append (steps others : List Step) :
    changes (steps ++ others) = changes steps + changes others := by
  rw [changes, List.countP_append, changes, changes]

namespace Traverses

variable {primary secondary : List β} {row column : Nat} {steps : List Step}

theorem primary_eq (traverses : Traverses primary secondary 0 0 steps) :
    steps.filterMap Step.primary? = List.range primary.length := by
  have rows := traverses.path.rows_eq
  rw [List.filterMap_map, Nat.sub_zero, ← List.range_eq_range'] at rows
  rw [← rows]
  exact List.filterMap_congr fun step _ => step.row?_move.symm

theorem secondary_eq (traverses : Traverses primary secondary 0 0 steps) :
    steps.filterMap Step.secondary? = List.range secondary.length := by
  have columns := traverses.path.columns_eq
  rw [List.filterMap_map, Nat.sub_zero, ← List.range_eq_range'] at columns
  rw [← columns]
  exact List.filterMap_congr fun step _ => step.column?_move.symm

theorem turns (traverses : Traverses primary secondary row column steps) :
    Turns (primary.drop row) (secondary.drop column) (changes steps) := by
  induction traverses with
  | done =>
      rw [List.drop_length, List.drop_length]
      exact .nil
  | keep isSymbol isOther _ ih =>
      obtain ⟨rowInside, rfl⟩ := List.getElem?_eq_some_iff.mp isSymbol
      obtain ⟨columnInside, same⟩ := List.getElem?_eq_some_iff.mp isOther
      rw [List.drop_eq_getElem_cons rowInside, List.drop_eq_getElem_cons columnInside, same, changes_cons]
      exact .keep ih
  | substitute isSymbol isOther _ _ ih =>
      obtain ⟨rowInside, _⟩ := List.getElem?_eq_some_iff.mp isSymbol
      obtain ⟨columnInside, _⟩ := List.getElem?_eq_some_iff.mp isOther
      rw [List.drop_eq_getElem_cons rowInside, List.drop_eq_getElem_cons columnInside, changes_cons]
      exact .substitute ih
  | insert inside _ ih =>
      rw [List.drop_eq_getElem_cons inside, changes_cons]
      exact .insert ih
  | delete inside _ ih =>
      rw [List.drop_eq_getElem_cons inside, changes_cons]
      exact .delete ih

/-- The rest of a script can be replaced by any other one from the same positions. -/
theorem resume {front : List Step} (traverses : Traverses primary secondary row column (front ++ steps)) :
    ∃ above left, Traverses primary secondary above left steps ∧
      ∀ others, Traverses primary secondary above left others →
        Traverses primary secondary row column (front ++ others) := by
  induction front generalizing row column with
  | nil => exact ⟨row, column, traverses, fun _ behind => behind⟩
  | cons step front ih =>
      cases traverses with
      | keep isSymbol isOther behind =>
          obtain ⟨above, left, rest, back⟩ := ih behind
          exact ⟨above, left, rest, fun others there => .keep isSymbol isOther (back others there)⟩
      | substitute isSymbol isOther apart behind =>
          obtain ⟨above, left, rest, back⟩ := ih behind
          exact ⟨above, left, rest,
            fun others there => .substitute isSymbol isOther apart (back others there)⟩
      | insert inside behind =>
          obtain ⟨above, left, rest, back⟩ := ih behind
          exact ⟨above, left, rest, fun others there => .insert inside (back others there)⟩
      | delete inside behind =>
          obtain ⟨above, left, rest, back⟩ := ih behind
          exact ⟨above, left, rest, fun others there => .delete inside (back others there)⟩

theorem pair (rowInside : row < primary.length) (columnInside : column < secondary.length)
    (behind : Traverses primary secondary (row + 1) (column + 1) steps) :
    ∃ step, Traverses primary secondary row column (step :: steps) := by
  have isSymbol := List.getElem?_eq_getElem rowInside
  have isOther := List.getElem?_eq_getElem columnInside
  by_cases same : primary[row] = secondary[column]
  · rw [← same] at isOther
    exact ⟨_, .keep isSymbol isOther behind⟩
  · exact ⟨_, .substitute isSymbol isOther same behind⟩

theorem of_insert {step : Step} (traverses : Traverses primary secondary row column (step :: steps))
    (isInsert : step.op = .insert) :
    column < secondary.length ∧ Traverses primary secondary row (column + 1) steps := by
  cases traverses with
  | insert inside behind => exact ⟨inside, behind⟩
  | _ => cases isInsert

theorem of_delete {step : Step} (traverses : Traverses primary secondary row column (step :: steps))
    (isDelete : step.op = .delete) :
    row < primary.length ∧ Traverses primary secondary (row + 1) column steps := by
  cases traverses with
  | delete inside behind => exact ⟨inside, behind⟩
  | _ => cases isDelete

/-- One entry does for an insertion and a deletion next to each other, whichever comes first. -/
theorem merge {first second : Step}
    (traverses : Traverses primary secondary row column (first :: second :: steps))
    (mixed : first.op = .insert ∧ second.op = .delete ∨ first.op = .delete ∧ second.op = .insert) :
    ∃ step, Traverses primary secondary row column (step :: steps) := by
  rcases mixed with ⟨isInsert, isDelete⟩ | ⟨isDelete, isInsert⟩
  · obtain ⟨columnInside, behind⟩ := traverses.of_insert isInsert
    obtain ⟨rowInside, behind⟩ := behind.of_delete isDelete
    exact behind.pair rowInside columnInside
  · obtain ⟨rowInside, behind⟩ := traverses.of_delete isDelete
    obtain ⟨columnInside, behind⟩ := behind.of_insert isInsert
    exact behind.pair rowInside columnInside

end Traverses

variable [DecidableEq β] {primary secondary : List β}

/-- In a shortest script an insertion is not next to a deletion. -/
theorem Traverses.apart {steps : List Step} (traverses : Traverses primary secondary 0 0 steps)
    (shortest : changes steps = levenshtein primary secondary) {first second : Step}
    (adjacent : [first, second] <:+: steps) :
    ¬ (first.op = .insert ∧ second.op = .delete ∨ first.op = .delete ∧ second.op = .insert) := by
  intro mixed
  obtain ⟨front, rest, rfl⟩ := adjacent
  simp only [List.append_assoc, List.cons_append, List.nil_append] at traverses shortest
  obtain ⟨above, left, here, back⟩ := traverses.resume
  obtain ⟨step, merged⟩ := here.merge mixed
  have fewer : levenshtein primary secondary ≤ changes (front ++ step :: rest) :=
    (back _ merged).turns.levenshtein_le
  have isFirst : first.op ≠ .keep := by
    rcases mixed with ⟨equal, _⟩ | ⟨equal, _⟩ <;> simp [equal]
  have isSecond : second.op ≠ .keep := by
    rcases mixed with ⟨_, equal⟩ | ⟨_, equal⟩ <;> simp [equal]
  rw [changes_append, changes_cons] at fewer
  rw [changes_append, changes_cons, changes_cons, if_neg isFirst, if_neg isSecond] at shortest
  split at fewer
  · omega
  · omega

/-- What an entry does to the tokens at its positions. -/
def Step.Fits (primary secondary : List Token) (step : Step) : Prop :=
  match step.primary?, step.secondary? with
  | some row, some column => ∃ first second, primary[row]? = some first ∧
      secondary[column]? = some second ∧ step.op = if first.same second then .keep else .substitute
  | some _, none => step.op = .delete
  | none, some _ => step.op = .insert
  | none, none => False

theorem Traverses.fits {primary secondary : List Token} {row column : Nat} {steps : List Step}
    (traverses : Traverses (primary.map Token.key) (secondary.map Token.key) row column steps) :
    ∀ step ∈ steps, step.Fits primary secondary := by
  -- a pair has a token on either side, whatever it does with them
  have tokens : ∀ {row column : Nat} {key other : Token.Key},
      (primary.map Token.key)[row]? = some key → (secondary.map Token.key)[column]? = some other →
      ∃ first second, primary[row]? = some first ∧ secondary[column]? = some second ∧
        first.same second = decide (key = other) := by
    intro row column key other isKey isOther
    rw [List.getElem?_map] at isKey isOther
    obtain ⟨first, isFirst, rfl⟩ := Option.map_eq_some_iff.mp isKey
    obtain ⟨second, isSecond, rfl⟩ := Option.map_eq_some_iff.mp isOther
    exact ⟨first, second, isFirst, isSecond, rfl⟩
  induction traverses with
  | done => simp
  | keep isKey isOther _ ih =>
      obtain ⟨first, second, isFirst, isSecond, same⟩ := tokens isKey isOther
      refine List.forall_mem_cons.mpr ⟨⟨first, second, isFirst, isSecond, ?_⟩, ih⟩
      simp [same, Step.op]
  | substitute isKey isOther apart _ ih =>
      obtain ⟨first, second, isFirst, isSecond, same⟩ := tokens isKey isOther
      refine List.forall_mem_cons.mpr ⟨⟨first, second, isFirst, isSecond, ?_⟩, ih⟩
      simp [same, apart, Step.op]
  | insert _ _ ih => exact List.forall_mem_cons.mpr ⟨rfl, ih⟩
  | delete _ _ ih => exact List.forall_mem_cons.mpr ⟨rfl, ih⟩

structure Shortest (primary secondary : List Token) (steps : List Step) : Prop where
  primary_eq : steps.filterMap Step.primary? = List.range primary.length
  secondary_eq : steps.filterMap Step.secondary? = List.range secondary.length
  fits : ∀ step ∈ steps, step.Fits primary secondary
  changes_eq : (steps.filter fun step => step.op ≠ .keep).length =
    distance (primary.map Token.key) (secondary.map Token.key)
  apart : ∀ first second, [first, second] <:+: steps →
    ¬ (first.op = .insert ∧ second.op = .delete ∨ first.op = .delete ∧ second.op = .insert)

theorem script_shortest (primary secondary : List Token) :
    traceBack? (rows (primary.map Token.key) (secondary.map Token.key)) (primary.map Token.key)
        (secondary.map Token.key) primary.length secondary.length [] =
      some (script (primary.map Token.key) (secondary.map Token.key)) ∧
    Shortest primary secondary (script (primary.map Token.key) (secondary.map Token.key)) := by
  obtain ⟨traverses, shortest⟩ := script_spec (primary.map Token.key) (secondary.map Token.key)
  refine ⟨?_, ?_, ?_, traverses.fits, ?_, fun first second => traverses.apart shortest⟩
  · simpa using traceBack?_rows (primary.map Token.key) (secondary.map Token.key)
  · simpa using traverses.primary_eq
  · simpa using traverses.secondary_eq
  · rw [distance_eq, ← shortest, changes, List.countP_eq_length_filter]

end FlowAlign.Edit
