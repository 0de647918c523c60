import FlowAlign.Code.Order
import FlowAlign.Proofs.Code.Targets
import FlowAlign.Proofs.Graph.Search
import FlowAlign.Proofs.Outcome

/-!
The linear order of blocks. When all exits lead to blocks, the order lists the blocks that can be
reached from the entry, each once and the entry first.
-/

namespace FlowAlign.Code

theorem lastIndex?_getElem? {value : Int} : ∀ {values : List Int} {index : Nat},
    lastIndex? value values = some index → values[index]? = some value := by
  intro values
  induction values with
  | nil =>
      intro index found
      simp [lastIndex?] at found
  | cons first rest ih =>
      intro index found
      simp only [lastIndex?] at found
      split at found
      · rename_i later isLater
        simp only [Option.some.injEq] at found
        subst found
        simpa using ih isLater
      · split at found
        · rename_i here
          simp only [Option.some.injEq] at found
          subst found
          simp [here]
        · simp at found

theorem lastIndex?_ne_none {value : Int} : ∀ {values : List Int}, value ∈ values →
    lastIndex? value values ≠ none := by
  intro values
  induction values with
  | nil =>
      intro member
      simp at member
  | cons first rest ih =>
      intro member
      simp only [lastIndex?]
      split
      · simp
      · rename_i notLater
        have here : first = value := by
          rcases List.mem_cons.mp member with rfl | later
          · rfl
          · exact absurd notLater (ih later)
        simp [here]

variable {blocks : List CodeBlock}

theorem position?_lt {address : Int} {position : Nat}
    (found : position? blocks address = some position) : position < blocks.length := by
  have present := lastIndex?_getElem? found
  rw [List.getElem?_map] at present
  obtain ⟨block, isBlock, _⟩ := Option.map_eq_some_iff.mp present
  exact (List.getElem?_eq_some_iff.mp isBlock).1

def exitPosition (blocks : List CodeBlock) (exit : Exit) : Nat :=
  (position? blocks exit.target).getD 0

theorem Closed.position? (closed : Closed blocks) {block : CodeBlock} (isBlock : block ∈ blocks)
    {exit : Exit} (isExit : exit ∈ block.exits) :
    Code.position? blocks exit.target = some (exitPosition blocks exit) := by
  have known := lastIndex?_ne_none (closed block isBlock exit isExit)
  rw [exitPosition]
  cases found : Code.position? blocks exit.target with
  | none => exact absurd found known
  | some position => rfl

def successorsOf (blocks : List CodeBlock) (position : Nat) (block : CodeBlock) : List Nat :=
  orderedSuccessors (block.exits.map fun exit =>
    { source := position, target := exitPosition blocks exit, kind := exit.kind
      value := exit.value })

theorem mem_successorsOf {position target : Nat} {block : CodeBlock} :
    target ∈ successorsOf blocks position block ↔
      ∃ exit ∈ block.exits, exitPosition blocks exit = target := by
  simp [successorsOf, orderedSuccessors, Edge.sort, List.mem_eraseDups]

theorem successorsFrom_eq (closed : Closed blocks) : ∀ (rest : List CodeBlock) (position : Nat),
    rest ⊆ blocks → successorsFrom blocks position rest =
      .ok ((rest.zipIdx position).map fun (block, place) => successorsOf blocks place block) := by
  intro rest
  induction rest with
  | nil =>
      intro position _
      rfl
  | cons block rest ih =>
      intro position subset
      have edges : block.exits.mapM (edgeOf? blocks position) =
          .ok (block.exits.map fun exit =>
            { source := position, target := exitPosition blocks exit, kind := exit.kind
              value := exit.value }) := by
        apply Outcome.mapM_ok
        intro exit isExit
        simp only [edgeOf?, closed.position? (subset List.mem_cons_self) isExit]
      have later := ih (position + 1) fun other member => subset (List.mem_cons_of_mem _ member)
      simp only [successorsFrom, edges, later, Outcome.ok_bind]
      rfl

/-- Whether an exit of the block at the first position leads to the block at the second. -/
def Leads (blocks : List CodeBlock) (first second : Nat) : Prop :=
  ∃ block, blocks[first]? = some block ∧ ∃ exit ∈ block.exits, exitPosition blocks exit = second

def nextOf (blocks : List CodeBlock) (position : Nat) : List Nat :=
  (((blocks.zipIdx 0).map fun (block, place) => successorsOf blocks place block).getD
    position []).reverse

theorem mem_nextOf {first second : Nat} : second ∈ nextOf blocks first ↔ Leads blocks first second := by
  simp only [nextOf, List.mem_reverse, List.getD_eq_getElem?_getD, List.getElem?_map,
    List.getElem?_zipIdx, Leads]
  cases blocks[first]? with
  | none => simp
  | some block => simp [mem_successorsOf]

theorem linearize_eq (closed : Closed blocks) (nonempty : blocks ≠ []) :
    linearize blocks = .ok (Search.reversePostorder (nextOf blocks) blocks.length 0) := by
  have filled : blocks.isEmpty = false := by simpa using nonempty
  simp only [linearize, successorsFrom_eq closed blocks 0 (List.Subset.refl _), Outcome.ok_bind,
    filled, Bool.false_eq_true, if_false, Outcome.pure_eq]
  rfl

theorem nextOf_inside (closed : Closed blocks) : ∀ vertex ∈ Finset.range blocks.length,
    ∀ other ∈ nextOf blocks vertex, other ∈ Finset.range blocks.length := by
  intro vertex _ other follows
  obtain ⟨block, found, exit, isExit, rfl⟩ := mem_nextOf.mp follows
  exact Finset.mem_range.mpr
    (position?_lt (closed.position? (List.mem_of_getElem? found) isExit))

theorem reaches_nextOf :
    Search.Reaches (nextOf blocks) = Relation.ReflTransGen (Leads blocks) := by
  have leads : (fun first second => second ∈ nextOf blocks first) = Leads blocks := by
    funext first second
    exact propext mem_nextOf
  rw [Search.Reaches, leads]

theorem linearize_spec (closed : Closed blocks) (nonempty : blocks ≠ []) :
    ∃ order, linearize blocks = .ok order ∧ order.Nodup ∧ order.head? = some 0 ∧
      (∀ position ∈ order, position < blocks.length) ∧
      ∀ position, position ∈ order ↔ Relation.ReflTransGen (Leads blocks) 0 position := by
  have inside := nextOf_inside closed
  have entry : 0 ∈ Finset.range blocks.length := by
    simpa [List.length_pos_iff] using nonempty
  obtain ⟨distinct, head, reached⟩ := Search.reversePostorder_spec inside
    (Nat.le_of_eq (Finset.card_range _)) entry
  refine ⟨_, linearize_eq closed nonempty, distinct, head, ?_, ?_⟩
  · intro position member
    have path := (reached position).mp member
    induction path with
    | refl => exact Finset.mem_range.mp entry
    | tail earlier follows ih =>
        have before := ih ((reached _).mpr earlier)
        exact Finset.mem_range.mp (inside _ (Finset.mem_range.mpr before) _ follows)
  · intro position
    rw [reached, reaches_nextOf]

end FlowAlign.Code
