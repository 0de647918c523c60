import FlowAlign.Proofs.Align.Path
import FlowAlign.Proofs.Edit.Table

/-!
Scripts traced back through the distance table. A trace never looks beside the table. Its script goes
through both sequences position by position, as the path of an alignment does, keeps a pair exactly when
its symbols are equal, and makes as many changes as the edit distance says.
-/

namespace FlowAlign.Edit

variable {β : Type}

/-- A script goes through both sequences from a pair of positions to their ends. -/
inductive Traverses (primary secondary : List β) : Nat → Nat → List Step → Prop
  | done : Traverses primary secondary primary.length secondary.length []
  | keep {row column rest symbol} : primary[row]? = some symbol → secondary[column]? = some symbol →
      Traverses primary secondary (row + 1) (column + 1) rest →
      Traverses primary secondary row column (.keep row column :: rest)
  | substitute {row column rest symbol other} : primary[row]? = some symbol →
      secondary[column]? = some other → symbol ≠ other →
      Traverses primary secondary (row + 1) (column + 1) rest →
      Traverses primary secondary row column (.substitute row column :: rest)
  | insert {row column rest} : column < secondary.length →
      Traverses primary secondary row (column + 1) rest →
      Traverses primary secondary row column (.insert column :: rest)
  | delete {row column rest} : row < primary.length →
      Traverses primary secondary (row + 1) column rest →
      Traverses primary secondary row column (.delete row :: rest)

/-- An entry as a step of an alignment. -/
def Step.move : Step → FlowAlign.Step
  | keep primary secondary => .pairing primary secondary
  | substitute primary secondary => .pairing primary secondary
  | insert secondary => .insertion secondary
  | delete primary => .deletion primary

namespace Traverses

variable {primary secondary : List β} {row column : Nat} {steps : List Step}

theorem path (traverses : Traverses primary secondary row column steps) :
    Align.Path row column (steps.map Step.move) primary.length secondary.length := by
  induction traverses with
  | done => exact .done
  | keep _ _ _ ih => exact .pairing ih
  | substitute _ _ _ _ ih => exact .pairing ih
  | insert _ _ ih => exact .insertion ih
  | delete _ _ ih => exact .deletion ih

theorem row_le (traverses : Traverses primary secondary row column steps) :
    row ≤ primary.length :=
  traverses.path.row_le

theorem column_le (traverses : Traverses primary secondary row column steps) :
    column ≤ secondary.length :=
  traverses.path.column_le

end Traverses

def changes (steps : List Step) : Nat :=
  steps.countP fun step => step.op ≠ .keep

@[simp] theorem changes_cons (step : Step) (steps : List Step) :
    changes (step :: steps) = changes steps + if step.op = .keep then 0 else 1 := by
  rw [changes, List.countP_cons, changes]
  by_cases kept : step.op = .keep
  · simp [kept]
  · simp [kept]

variable [DecidableEq β] {primary secondary : List β}

theorem levenshtein_take {row column : Nat} {symbol other : β} (isSymbol : primary[row]? = some symbol)
    (isOther : secondary[column]? = some other) :
    levenshtein (primary.take (row + 1)) (secondary.take (column + 1)) =
      min (min (levenshtein (primary.take row) (secondary.take (column + 1)) + 1)
        (levenshtein (primary.take row) (secondary.take column) + if symbol = other then 0 else 1))
        (levenshtein (primary.take (row + 1)) (secondary.take column) + 1) := by
  rw [List.take_add_one, List.take_add_one, isSymbol, isOther]
  exact levenshtein_concat symbol other _ _

def cell? (table : List (List Int)) (row column : Nat) : Option Int := do
  (← table[row]?)[column]?

/-- A trace without a bound on its entries, in which every look at the table and at the sequences has to
find something. -/
def traceBack? (table : List (List Int)) (primary secondary : List β) :
    Nat → Nat → List Step → Option (List Step)
  | 0, 0, found => some found
  | 0, column + 1, found => do
      -- the only other way, a deletion, leaves the table
      if (← cell? table 0 (column + 1)) = (← cell? table 0 column) + 1 then
        traceBack? table primary secondary 0 column (.insert column :: found)
      else none
  | row + 1, 0, found => traceBack? table primary secondary row 0 (.delete row :: found)
  | row + 1, column + 1, found => do
      let symbol ← primary[row]?
      let other ← secondary[column]?
      let here ← cell? table (row + 1) (column + 1)
      if here = (← cell? table row column) + if symbol = other then 0 else 1 then
        traceBack? table primary secondary row column
          ((if symbol = other then .keep row column else .substitute row column) :: found)
      else if here = (← cell? table (row + 1) column) + 1 then
        traceBack? table primary secondary (row + 1) column (.insert column :: found)
      else traceBack? table primary secondary row (column + 1) (.delete row :: found)
termination_by row column => row + column

theorem cell?_rows {row column : Nat} (rowInside : row ≤ primary.length)
    (columnInside : column ≤ secondary.length) :
    cell? (rows primary secondary) row column =
      some (levenshtein (primary.take row) (secondary.take column) : Int) := by
  rw [cell?, getElem?_rows secondary rowInside]
  exact getElem?_distances _ columnInside

/-- One entry takes a trace from a cell to an earlier one, whether its looks are checked or not, and
their distances differ by what the entry changes. -/
theorem trace_step {row column : Nat} {found : List Step} (started : 0 < row + column)
    (behind : Traverses primary secondary row column found) (fuel : Nat) :
    ∃ step above left,
      trace (rows primary secondary) primary secondary (fuel + 1) row column found =
        trace (rows primary secondary) primary secondary fuel above left (step :: found) ∧
      traceBack? (rows primary secondary) primary secondary row column found =
        traceBack? (rows primary secondary) primary secondary above left (step :: found) ∧
      Traverses primary secondary above left (step :: found) ∧ above + left < row + column ∧
      levenshtein (primary.take row) (secondary.take column) =
        levenshtein (primary.take above) (secondary.take left) +
          if step.op = .keep then 0 else 1 := by
  have rowInside := behind.row_le
  have columnInside := behind.column_le
  cases row with
  | zero =>
      cases column with
      | zero => omega
      | succ column =>
          have before : column ≤ secondary.length := by omega
          have cost : levenshtein (primary.take 0) (secondary.take (column + 1)) =
              levenshtein (primary.take 0) (secondary.take column) + 1 := by
            simp [columnInside, before]
          refine ⟨.insert column, 0, column, rfl, ?_, .insert columnInside behind, by omega, cost⟩
          simp only [traceBack?, cell?_rows rowInside columnInside, cell?_rows rowInside before, cost,
            Option.bind_eq_bind, Option.bind_some, Int.natCast_succ, if_true]
  | succ row =>
      cases column with
      | zero =>
          refine ⟨.delete row, row, 0, rfl, ?_, .delete rowInside behind, by omega, ?_⟩
          · rw [traceBack?]
          · have before : row ≤ primary.length := by omega
            simp [Step.op, rowInside, before]
      | succ column =>
          obtain ⟨symbol, isSymbol⟩ : ∃ symbol, primary[row]? = some symbol :=
            ⟨_, List.getElem?_eq_getElem rowInside⟩
          obtain ⟨other, isOther⟩ : ∃ other, secondary[column]? = some other :=
            ⟨_, List.getElem?_eq_getElem columnInside⟩
          have least := levenshtein_take isSymbol isOther
          simp only [trace, traceBack?, isSymbol, isOther, Option.some.injEq, Option.bind_eq_bind,
            Option.bind_some, cell_rows rowInside columnInside,
            cell_rows (Nat.le_of_lt rowInside) (Nat.le_of_lt columnInside),
            cell_rows rowInside (Nat.le_of_lt columnInside), cell?_rows rowInside columnInside,
            cell?_rows (Nat.le_of_lt rowInside) (Nat.le_of_lt columnInside),
            cell?_rows rowInside (Nat.le_of_lt columnInside)]
          by_cases paired : (levenshtein (primary.take (row + 1)) (secondary.take (column + 1)) : Int) =
              levenshtein (primary.take row) (secondary.take column) +
                if symbol = other then 0 else 1
          · rw [if_pos paired, if_pos paired]
            by_cases same : symbol = other
            · rw [if_pos same] at paired ⊢
              refine ⟨.keep row column, row, column, rfl, rfl, .keep isSymbol (same ▸ isOther) behind,
                by omega, ?_⟩
              simp only [Step.op, if_true]
              omega
            · rw [if_neg same] at paired ⊢
              refine ⟨.substitute row column, row, column, rfl, rfl,
                .substitute isSymbol isOther same behind, by omega, ?_⟩
              simp only [Step.op, reduceCtorEq, if_false]
              omega
          · rw [if_neg paired, if_neg paired]
            split
            · refine ⟨.insert column, row + 1, column, rfl, rfl, .insert columnInside behind,
                by omega, ?_⟩
              simp only [Step.op, reduceCtorEq, if_false]
              omega
            · -- the last way is not compared with the table: it is the only one left of the three
              refine ⟨.delete row, row, column + 1, rfl, rfl, .delete rowInside behind, by omega, ?_⟩
              simp only [Step.op, reduceCtorEq, if_false]
              by_cases same : symbol = other
              · rw [if_pos same] at paired least
                omega
              · rw [if_neg same] at paired least
                omega

/-- A trace goes through the rest of both sequences, with as many changes as its first cell says. A
bound of as many entries as there are rows and columns left is enough for it, and it never looks beside
the table. -/
theorem trace_spec : ∀ (fuel row column : Nat) (found : List Step), row + column ≤ fuel →
    Traverses primary secondary row column found →
    traceBack? (rows primary secondary) primary secondary row column found =
      some (trace (rows primary secondary) primary secondary fuel row column found) ∧
    Traverses primary secondary 0 0
      (trace (rows primary secondary) primary secondary fuel row column found) ∧
    changes (trace (rows primary secondary) primary secondary fuel row column found) =
      levenshtein (primary.take row) (secondary.take column) + changes found := by
  intro fuel
  induction fuel with
  | zero =>
      intro row column found enough behind
      obtain ⟨rfl, rfl⟩ : row = 0 ∧ column = 0 := by omega
      exact ⟨by rw [traceBack?, trace], behind, by simp [trace]⟩
  | succ fuel ih =>
      intro row column found enough behind
      rcases Nat.eq_zero_or_pos (row + column) with corner | started
      · obtain ⟨rfl, rfl⟩ : row = 0 ∧ column = 0 := by omega
        exact ⟨by rw [traceBack?, trace], behind, by simp [trace]⟩
      · obtain ⟨step, above, left, traced, checked, ahead, closer, cost⟩ := trace_step started behind fuel
        obtain ⟨inside, traverses, count⟩ := ih above left (step :: found) (by omega) ahead
        rw [traced, checked]
        refine ⟨inside, traverses, ?_⟩
        rw [count, cost, changes_cons]
        omega

/-- A script is traced inside of the table. -/
theorem traceBack?_rows (primary secondary : List β) :
    traceBack? (rows primary secondary) primary secondary primary.length secondary.length [] =
      some (script primary secondary) :=
  (trace_spec _ primary.length secondary.length [] (Nat.le_refl _) .done).1

/-- Scripts go through both sequences, and no script makes fewer changes. -/
theorem script_spec (primary secondary : List β) :
    Traverses primary secondary 0 0 (script primary secondary) ∧
      changes (script primary secondary) = levenshtein primary secondary := by
  obtain ⟨_, traverses, count⟩ := trace_spec _ primary.length secondary.length [] (Nat.le_refl _)
    (Traverses.done : Traverses primary secondary _ _ _)
  rw [List.take_length, List.take_length] at count
  exact ⟨traverses, count⟩

end FlowAlign.Edit
