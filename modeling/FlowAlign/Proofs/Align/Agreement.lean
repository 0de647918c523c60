import FlowAlign.Proofs.Align.Topology
import FlowAlign.Proofs.Quantity.Rational
import Mathlib.Algebra.Order.Field.Basic
import Mathlib.Data.Finset.Card

/-!
What the refinement of costs adds up, over exact rationals. The distance of two lists is that of the sets
they stand for, and what is around two blocks agrees in at most all of it, however the blocks of the
first graph are mapped to those of the second one.
-/

namespace FlowAlign.Align

section Distance

/-- Jaccard distance of two sets. -/
def setDistance {κ : Type} [DecidableEq κ] (first second : Finset κ) : Rat :=
  if first ∪ second = ∅ then 0 else 1 - ((first ∩ second).card : Rat) / (first ∪ second).card

variable {κ : Type} [DecidableEq κ]

theorem setDistance_nonneg (first second : Finset κ) : 0 ≤ setDistance first second := by
  rw [setDistance]
  split
  · exact le_rfl
  · have fewer : (first ∩ second).card ≤ (first ∪ second).card :=
      Finset.card_le_card (Finset.inter_subset_union)
    have share : ((first ∩ second).card : Rat) / (first ∪ second).card ≤ 1 :=
      div_le_one_of_le₀ (by exact_mod_cast fewer) (Nat.cast_nonneg _)
    linarith

theorem setDistance_le_one (first second : Finset κ) : setDistance first second ≤ 1 := by
  rw [setDistance]
  split
  · exact zero_le_one
  · have share : 0 ≤ ((first ∩ second).card : Rat) / (first ∪ second).card :=
      div_nonneg (Nat.cast_nonneg _) (Nat.cast_nonneg _)
    linarith

@[simp] theorem setDistance_self (members : Finset κ) : setDistance members members = 0 := by
  rw [setDistance, Finset.union_self, Finset.inter_self]
  split
  · rfl
  · rename_i filled
    have positive : (members.card : Rat) ≠ 0 := by
      simpa using filled
    rw [div_self positive, sub_self]

variable [BEq κ] [LawfulBEq κ]

theorem length_eraseDups (members : List κ) :
    members.eraseDups.length = members.toFinset.card := by
  rw [← List.toFinset_card_of_nodup (nodup_eraseDups members)]
  congr 1
  ext member
  simp [List.mem_eraseDups]

/-- A list counts for the set of its members. -/
theorem jaccard_eq (first second : List κ) :
    (jaccard first second : Rat) = setDistance first.toFinset second.toFinset := by
  have union : (first ++ second).eraseDups.length = (first.toFinset ∪ second.toFinset).card := by
    rw [length_eraseDups, List.toFinset_append]
  have common : (first.eraseDups.filter second.contains).length =
      (first.toFinset ∩ second.toFinset).card := by
    rw [← List.toFinset_card_of_nodup ((nodup_eraseDups first).filter _)]
    congr 1
    ext member
    simp [List.mem_eraseDups]
  have empty : (first ++ second).eraseDups.isEmpty = true ↔
      first.toFinset ∪ second.toFinset = ∅ := by
    rw [List.isEmpty_iff_length_eq_zero, union, Finset.card_eq_zero]
  simp only [jaccard, setDistance, empty, union, common, Quantity.rat_whole, Quantity.rat_sub,
    Quantity.rat_div, Nat.cast_zero, Nat.cast_one]

end Distance

section Neighbours

theorem countP_mem_cons {position : Nat} {rest : List Nat} (absent : position ∉ rest)
    (first : List Nat) :
    first.countP (fun other => decide (other ∈ position :: rest)) =
      first.count position + first.countP fun other => decide (other ∈ rest) := by
  induction first with
  | nil => rfl
  | cons other first ih =>
      rw [List.countP_cons, ih, List.count_cons, List.countP_cons]
      by_cases same : other = position
      · subst same
        simp [absent]
        omega
      · simp [same]
        omega

theorem common_eq_countP (first : List Nat) {second : List Nat} (distinct : second.Nodup) :
    common first second = first.countP fun position => decide (position ∈ second) := by
  induction second with
  | nil => simp [common]
  | cons position rest ih =>
      obtain ⟨absent, distinctRest⟩ := List.nodup_cons.mp distinct
      rw [countP_mem_cons absent, ← ih distinctRest]
      rfl

theorem common_le (first : List Nat) {second : List Nat} (distinct : second.Nodup) :
    common first second ≤ first.length := by
  rw [common_eq_countP first distinct]
  exact List.countP_le_length

theorem common_self {positions : List Nat} (distinct : positions.Nodup) :
    common positions positions = positions.length := by
  rw [common_eq_countP positions distinct, List.countP_eq_length]
  intro position member
  exact decide_eq_true member

/-- What is around a block is around it once. -/
structure Neighbours.Distinct (near : Neighbours) : Prop where
  next : near.next.Nodup
  previous : near.previous.Nodup

theorem agreement_nonneg (first counterparts second : Neighbours) :
    (0 : Rat) ≤ agreement first counterparts second := by
  simp only [agreement, share, Quantity.rat_whole, Quantity.rat_div]
  split
  · exact div_nonneg (Nat.cast_nonneg _) (Nat.cast_nonneg _)
  · simp

/-- A block has one counterpart at most, so no more is aligned than there is around it. -/
theorem agreement_le_one (first : Neighbours) (partners : List (Option Nat)) {second : Neighbours}
    (distinct : second.Distinct) :
    (agreement first (first.counterparts partners) second : Rat) ≤ 1 := by
  have next := common_le (first.counterparts partners).next distinct.next
  have previous := common_le (first.counterparts partners).previous distinct.previous
  have fewerNext : (first.counterparts partners).next.length ≤ first.next.length :=
    List.length_filterMap_le _ _
  have fewerPrevious : (first.counterparts partners).previous.length ≤ first.previous.length :=
    List.length_filterMap_le _ _
  simp only [agreement, share, Quantity.rat_whole, Quantity.rat_div]
  split
  · apply div_le_one_of_le₀
    · exact_mod_cast (by omega : _ ≤ _)
    · positivity
  · simp

theorem agreement_self {near : Neighbours} (distinct : near.Distinct) :
    (agreement near near near : Rat) = 1 := by
  simp only [agreement, share, common_self distinct.next, common_self distinct.previous, max_self,
    Quantity.rat_whole, Quantity.rat_div]
  split
  · rename_i positive
    apply div_self
    exact_mod_cast (by omega : near.next.length + near.previous.length ≠ 0)
  · simp

variable {graph : FlowGraph} (formed : graph.WellFormed)

include formed

theorem around_distinct (id : Int) : (around graph id).Distinct := by
  constructor
  · refine List.Nodup.map_on ?_ (nodup_eraseDups _)
    intro first firstMember second secondMember same
    have firstInside := formed.successors_inside firstMember
    have secondInside := formed.successors_inside secondMember
    omega
  · refine List.Nodup.map_on ?_ (nodup_eraseDups _)
    intro first firstMember second secondMember same
    have firstInside := formed.predecessors_inside firstMember
    have secondInside := formed.predecessors_inside secondMember
    omega

theorem around_areBelow (id : Int) : (around graph id).areBelow graph.size = true := by
  simp only [Neighbours.areBelow, List.all_eq_true, decide_eq_true_eq, List.mem_append, around,
    List.mem_map]
  rintro position (⟨target, member, rfl⟩ | ⟨source, member, rfl⟩)
  · have inside := formed.successors_inside member
    omega
  · have inside := formed.predecessors_inside member
    omega

end Neighbours

end FlowAlign.Align
