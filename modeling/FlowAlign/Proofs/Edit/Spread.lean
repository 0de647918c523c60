import FlowAlign.Edit.Distance
import Mathlib.Algebra.Order.Group.MinMax

/-!
Insertions along a row of a table. Lowered by what the insertions up to it cost, a cell is the least of
the candidates up to it, so a running minimum gives the cells of the plain recurrence.
-/

namespace FlowAlign

variable {γ : Type} [AddCommGroup γ]

def multiples (gap : γ) (start count : Nat) : List γ :=
  (List.range' start count).map fun times => times • gap

theorem multiples_succ (gap : γ) (start count : Nat) :
    multiples gap start (count + 1) = start • gap :: multiples gap (start + 1) count := by
  rw [multiples, List.range'_succ, List.map_cons, multiples]

variable [LinearOrder γ] [IsOrderedAddMonoid γ]

/-- A row in which a cell is its own candidate or one insertion after the cell before it. -/
def settle (gap : γ) : γ → List γ → List γ
  | best, [] => [best]
  | best, next :: rest => best :: settle gap (min next (best + gap)) rest

theorem runningLeast_settle (gap : γ) (candidates : List γ) : ∀ (start : Nat) (best : γ),
    List.zipWith (· + ·) (multiples gap start (candidates.length + 1))
      (runningLeast min (best - start • gap)
        (List.zipWith (· - ·) candidates (multiples gap (start + 1) candidates.length))) =
      settle gap best candidates := by
  induction candidates with
  | nil =>
      intro start best
      simp [multiples, runningLeast, settle]
  | cons next rest ih =>
      intro start best
      have lowered : min (best - start • gap) (next - (start + 1) • gap) =
          min next (best + gap) - (start + 1) • gap := by
        have shift : best - start • gap = best + gap - (start + 1) • gap := by
          rw [succ_nsmul, add_sub_add_right_eq_sub]
        rw [shift, min_sub_sub_right, min_comm]
      have later := ih (start + 1) (min next (best + gap))
      rw [multiples_succ, ← lowered] at later
      rw [List.length_cons, multiples_succ, multiples_succ, List.zipWith_cons_cons, runningLeast,
        List.zipWith_cons_cons, later, settle, add_sub_cancel]

end FlowAlign
