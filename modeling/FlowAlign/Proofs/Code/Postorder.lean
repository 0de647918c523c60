import Mathlib
import FlowAlign.Proofs.Code.Order

/-!
The linear order is a reverse postorder. Blocks are joined by the addresses that their exits name, and an
exit leads forward in the order unless the block that it leaves can be reached again. Without cycles the
order is therefore a topological one.
-/

namespace FlowAlign.Code

/-- An exit of the block at the first position names the address of the block at the second. -/
def Joins (blocks : List CodeBlock) (first second : Nat) : Prop :=
  ∃ source ∈ blocks[first]?, ∃ target ∈ blocks[second]?,
    ∃ exit ∈ source.exits, exit.target = target.address

instance (blocks : List CodeBlock) (first second : Nat) : Decidable (Joins blocks first second) :=
  inferInstanceAs (Decidable (∃ source ∈ blocks[first]?, ∃ target ∈ blocks[second]?,
    ∃ exit ∈ source.exits, exit.target = target.address))

theorem Joins.source_lt {blocks : List CodeBlock} {first second : Nat}
    (joins : Joins blocks first second) : first < blocks.length := by
  obtain ⟨source, isSource, _⟩ := joins
  exact (List.getElem?_eq_some_iff.mp isSource).1

theorem Joins.target_lt {blocks : List CodeBlock} {first second : Nat}
    (joins : Joins blocks first second) : second < blocks.length := by
  obtain ⟨_, _, target, isTarget, _⟩ := joins
  exact (List.getElem?_eq_some_iff.mp isTarget).1

/-- An order of the positions that can be reached from the entry. That a position comes before another
one is said by a sublist of the two. -/
structure ReversePostorder (blocks : List CodeBlock) (order : List Nat) : Prop where
  distinct : order.Nodup
  entry : order.head? = some 0
  reached : ∀ position, position ∈ order ↔ Relation.ReflTransGen (Joins blocks) 0 position
  forward : ∀ first ∈ order, ∀ second, Joins blocks first second →
    [first, second].Sublist order ∨ Relation.ReflTransGen (Joins blocks) second first
  topological : (∀ position ∈ order, ¬ Relation.TransGen (Joins blocks) position position) →
    ∀ first ∈ order, ∀ second, Joins blocks first second → [first, second].Sublist order

section Edges

variable {blocks : List CodeBlock} (distinct : (blocks.map CodeBlock.address).Nodup)
  (closed : Closed blocks)

include distinct closed

/-- Addresses that are distinct belong to one position each. -/
theorem joins_iff_leads {first second : Nat} : Joins blocks first second ↔ Leads blocks first second := by
  have place : ∀ source, blocks[first]? = some source → ∀ exit ∈ source.exits,
      (blocks.map CodeBlock.address)[exitPosition blocks exit]? = some exit.target := by
    intro source isSource exit isExit
    exact lastIndex?_getElem? (closed.position? (List.mem_of_getElem? isSource) isExit)
  constructor
  · rintro ⟨source, isSource, target, isTarget, exit, isExit, named⟩
    have found := place source isSource exit isExit
    have below : exitPosition blocks exit < (blocks.map CodeBlock.address).length :=
      (List.getElem?_eq_some_iff.mp found).1
    refine ⟨source, isSource, exit, isExit, (List.getElem?_inj below distinct).mp ?_⟩
    rw [found, List.getElem?_map, isTarget, Option.map_some, named]
  · rintro ⟨source, isSource, exit, isExit, rfl⟩
    have found := place source isSource exit isExit
    rw [List.getElem?_map] at found
    obtain ⟨target, isTarget, named⟩ := Option.map_eq_some_iff.mp found
    exact ⟨source, isSource, target, isTarget, exit, isExit, named.symm⟩

theorem joins_eq_leads : Joins blocks = Leads blocks := by
  funext first second
  exact propext (joins_iff_leads distinct closed)

end Edges

theorem linearize_reversePostorder (blocks : List CodeBlock) (nonempty : blocks ≠ [])
    (distinct : (blocks.map CodeBlock.address).Nodup) (closed : Closed blocks) :
    ∃ order, linearize blocks = .ok order ∧ ReversePostorder blocks order := by
  obtain ⟨order, isOrder, orderDistinct, entry, _, reached⟩ := linearize_spec closed nonempty
  have forward : ∀ first ∈ order, ∀ second, Joins blocks first second →
      [first, second].Sublist order ∨ Relation.ReflTransGen (Joins blocks) second first := by
    intro first member second joins
    have searched := linearize_eq closed nonempty
    rw [isOrder, Except.ok.injEq] at searched
    rw [joins_eq_leads distinct closed] at joins ⊢
    rw [searched] at member ⊢
    rw [← reaches_nextOf]
    exact Search.reversePostorder_forward (nextOf_inside closed) (Nat.le_of_eq (Finset.card_range _))
      (by simpa [List.length_pos_iff] using nonempty) member (mem_nextOf.mpr joins)
  refine ⟨order, isOrder, orderDistinct, entry, ?_, forward, ?_⟩
  · intro position
    rw [reached, joins_eq_leads distinct closed]
  · intro acyclic first member second joins
    refine (forward first member second joins).resolve_right fun back => ?_
    exact acyclic first member (.head' joins back)

/-- A loop of one block inside a loop back to the entry, a switch with two cases of one target, and a
block that nothing leads to. -/
def loopingBlocks : List CodeBlock :=
  [{ address := 0
     exits := [{ target := 8, kind := .branchTrue }, { target := 4, kind := .branchFalse }] },
   { address := 4
     exits := [{ target := 4, kind := .branchTrue }, { target := 12, kind := .branchFalse }] },
   { address := 8, exits := [{ target := 12, kind := .fallthrough }] },
   { address := 12
     exits := [{ target := 0, kind := .switchCase }, { target := 16, kind := .switchCase, value := some 2 },
       { target := 16, kind := .switchCase, value := some 1 }] },
   { address := 16 },
   { address := 20, exits := [{ target := 16, kind := .unconditional }] }]

/-- Two ways to one block, of which the longer one goes against the order of the addresses. -/
def forkingBlocks : List CodeBlock :=
  [{ address := 0
     exits := [{ target := 4, kind := .branchTrue }, { target := 8, kind := .branchFalse }] },
   { address := 4, exits := [{ target := 12, kind := .unconditional }] },
   { address := 8, exits := [{ target := 4, kind := .unconditional }] },
   { address := 12 }]

theorem forkingBlocks_acyclic (position : Nat) :
    ¬ Relation.TransGen (Joins forkingBlocks) position position := by
  have rises : ∀ first < 4, ∀ second < 4, Joins forkingBlocks first second →
      [0, 2, 1, 3].idxOf first < [0, 2, 1, 3].idxOf second := by decide
  intro cycle
  suffices ∀ {last}, Relation.TransGen (Joins forkingBlocks) position last →
      [0, 2, 1, 3].idxOf position < [0, 2, 1, 3].idxOf last from Nat.lt_irrefl _ (this cycle)
  intro last path
  induction path with
  | single joins => exact rises _ joins.source_lt _ joins.target_lt joins
  | tail _ joins before => exact before.trans (rises _ joins.source_lt _ joins.target_lt joins)

theorem linearize_reversePostorder_looping :
    (Closed loopingBlocks ∧ linearize loopingBlocks = .ok [0, 2, 1, 3, 4] ∧
      ReversePostorder loopingBlocks [0, 2, 1, 3, 4]) ∧
    (Closed forkingBlocks ∧ linearize forkingBlocks = .ok [0, 2, 1, 3] ∧
      ∀ first ∈ [0, 2, 1, 3], ∀ second, Joins forkingBlocks first second →
        [first, second].Sublist [0, 2, 1, 3]) := by
  have looping : Closed loopingBlocks := by
    unfold Closed
    decide
  have forking : Closed forkingBlocks := by
    unfold Closed
    decide
  have looped : linearize loopingBlocks = .ok [0, 2, 1, 3, 4] := by cbv
  have forked : linearize forkingBlocks = .ok [0, 2, 1, 3] := by cbv
  refine ⟨⟨looping, looped, ?_⟩, forking, forked, ?_⟩
  · obtain ⟨order, isOrder, postorder⟩ :=
      linearize_reversePostorder loopingBlocks (by decide) (by decide) looping
    rw [looped, Except.ok.injEq] at isOrder
    exact isOrder ▸ postorder
  · obtain ⟨order, isOrder, postorder⟩ :=
      linearize_reversePostorder forkingBlocks (by decide) (by decide) forking
    rw [forked, Except.ok.injEq] at isOrder
    subst isOrder
    exact postorder.topological fun position _ => forkingBlocks_acyclic position

end FlowAlign.Code
