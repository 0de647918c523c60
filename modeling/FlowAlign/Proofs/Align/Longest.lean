import Mathlib.Data.List.Lex
import Mathlib.Data.Int.Order.Basic
import Mathlib.Order.Bounds.Defs
import FlowAlign.Proofs.Align.Chain

/-!
The longest chain among all rising subsequences. Rising chains are the subsequences that rise, read
from the last element to the first. So the chain that is found is as long as any of them, and of those
that are as long it has the least values from the last one on.
-/

namespace FlowAlign.Align

/-- Elements of a list in their order, each above the one before. -/
structure Increasing (values chosen : List Int) : Prop where
  within : chosen.Sublist values
  rising : chosen.Pairwise (· < ·)

section Chains

variable {values chosen : List Int} {bound : Nat} {chain : Chain}

theorem Rising.sublist (rising : Rising values bound chain) :
    (chain.map Prod.fst).reverse.Sublist (values.take bound) := by
  induction chain generalizing bound with
  | nil => exact List.nil_sublist _
  | cons last rest ih =>
      obtain ⟨isLast, below⟩ := rising.taken last List.mem_cons_self
      have upToLast : values.take (last.2 + 1) = values.take last.2 ++ [last.1] := by
        rw [List.take_add_one, isLast, Option.toList_some]
      rw [List.map_cons, List.reverse_cons]
      refine List.Sublist.trans ?_ (List.take_sublist_take_left (show last.2 + 1 ≤ bound by omega))
      rw [upToLast]
      exact (ih rising.before_last).append (List.Sublist.refl _)

/-- A chain stands for an increasing subsequence. -/
theorem Rising.increasing (rising : Rising values bound chain) :
    Increasing values (chain.map Prod.fst).reverse := by
  refine ⟨rising.sublist.trans (List.take_sublist _ _), ?_⟩
  rw [List.pairwise_reverse, List.pairwise_map]
  exact rising.ordered.imp And.left

/-- Every increasing subsequence of the front of a list is that of a chain. -/
theorem exists_rising : ∀ {bound : Nat} {chosen : List Int}, chosen.Sublist (values.take bound) →
    chosen.Pairwise (· < ·) →
    ∃ chain, Rising values bound chain ∧ chain.map Prod.fst = chosen.reverse := by
  intro bound
  induction bound with
  | zero =>
      intro chosen within _
      rw [List.take_zero, List.sublist_nil] at within
      exact ⟨[], .nil, by rw [within]; rfl⟩
  | succ bound ih =>
      intro chosen within ordered
      rw [List.take_add_one, List.sublist_append_iff] at within
      obtain ⟨front, newest, rfl, isFront, isNewest⟩ := within
      obtain ⟨ordered, _, above⟩ := List.pairwise_append.mp ordered
      obtain ⟨chain, rising, same⟩ := ih isFront ordered
      cases found : values[bound]? with
      | none =>
          rw [found, Option.toList_none, List.sublist_nil] at isNewest
          refine ⟨chain, rising.mono (Nat.le_succ bound), ?_⟩
          rw [same, isNewest, List.append_nil]
      | some value =>
          rw [found, Option.toList_some, List.sublist_singleton] at isNewest
          -- the element at the bound is left out or comes last
          rcases isNewest with rfl | rfl
          · exact ⟨chain, rising.mono (Nat.le_succ bound), by rw [same, List.append_nil]⟩
          · have ends : endsAtLeast chain value = false := by
              cases chain with
              | nil => rfl
              | cons last rest =>
                  have member : last.1 ∈ front := by
                    rw [← List.mem_reverse, ← same]
                    exact List.mem_cons_self
                  simpa [endsAtLeast] using above last.1 member value List.mem_cons_self
            refine ⟨(value, bound) :: chain, rising.extend found ends, ?_⟩
            rw [List.map_cons, same, List.reverse_append, List.reverse_singleton,
              List.singleton_append]

theorem Increasing.exists_rising (increasing : Increasing values chosen) :
    ∃ chain, Rising values values.length chain ∧ chain.map Prod.fst = chosen.reverse := by
  refine Align.exists_rising ?_ increasing.rising
  rw [List.take_length]
  exact increasing.within

theorem le_of_atMost {first second : List Int} (atMost : AtMost first second) : first ≤ second := by
  rcases atMost with same | below
  · exact le_of_eq same
  · exact le_of_lt below

end Chains

/-- Positions of a list whose elements increase, as many as there can be, and with the least elements
that as many can have, compared from the last one to the first. -/
structure LeastLongest (values : List Int) (positions : List Nat) (chosen : List Int) : Prop where
  ordered : positions.Pairwise (· < ·)
  placed : positions.map (fun position => values[position]?) = chosen.map some
  increasing : Increasing values chosen
  longest : IsGreatest {length | ∃ other, Increasing values other ∧ other.length = length}
    positions.length
  least : IsLeast {backwards : List Int | ∃ other, Increasing values other ∧
    other.length = positions.length ∧ other.reverse = backwards} chosen.reverse

/-- What is found in any list of numbers are the positions of a longest increasing subsequence, the one
that is the least from its end on. -/
theorem longestChain_least (values : List Int) :
    ∃ chosen, LeastLongest values (longestChain values) chosen := by
  obtain ⟨chain, found, rising, best⟩ := longestChain_spec values
  have length : (longestChain values).length = chain.length := by
    rw [found, List.length_reverse, List.length_map]
  refine ⟨(chain.map Prod.fst).reverse, ?_, ?_, rising.increasing, ⟨?_, ?_⟩, ⟨?_, ?_⟩⟩
  · rw [found, List.pairwise_reverse, List.pairwise_map]
    exact rising.ordered.imp And.right
  · rw [found, List.map_reverse, List.map_reverse, List.map_map, List.map_map]
    congr 1
    exact List.map_congr_left fun entry member => (rising.taken entry member).1
  · exact ⟨_, rising.increasing, by rw [length, List.length_reverse, List.length_map]⟩
  · rintro size ⟨other, increasing, rfl⟩
    obtain ⟨otherChain, otherRising, same⟩ := increasing.exists_rising
    have atMost := (best otherChain otherRising).1
    rw [length]
    rwa [← List.length_map Prod.fst, same, List.length_reverse] at atMost
  · exact ⟨_, rising.increasing, by rw [length, List.length_reverse, List.length_map], rfl⟩
  · rintro backwards ⟨other, increasing, asLong, rfl⟩
    obtain ⟨otherChain, otherRising, same⟩ := increasing.exists_rising
    have asLong' : otherChain.length = chain.length := by
      rw [← List.length_map Prod.fst, same, List.length_reverse, asLong, length]
    rw [List.reverse_reverse, ← same]
    exact le_of_atMost ((best otherChain otherRising).2 asLong')

/-- Of the chains that end with 7, the one from 1 on is chosen, with the later 5. -/
example : longestChain [2, 5, 1, 5, 9, 7] = [2, 3, 5] := by decide

end FlowAlign.Align
