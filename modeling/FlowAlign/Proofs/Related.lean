import Mathlib.Data.List.Forall2

/-! Lists whose members are related one by one. -/

namespace FlowAlign

theorem mem_related {β γ : Type} {relation : β → γ → Prop} {items : List β} {items' : List γ}
    (related : List.Forall₂ relation items items') :
    ∀ second ∈ items', ∃ first ∈ items, relation first second := by
  induction related with
  | nil =>
      intro second member
      cases member
  | @cons first _ _ _ pair _ ih =>
      intro second member
      rcases List.mem_cons.mp member with rfl | member
      · exact ⟨first, List.mem_cons_self, pair⟩
      · obtain ⟨other, isOther, pair'⟩ := ih second member
        exact ⟨other, List.mem_cons_of_mem _ isOther, pair'⟩

theorem map_related {β β' γ : Type} {relation : β → β' → Prop} {view : β → γ} {view' : β' → γ}
    (each : ∀ first second, relation first second → view' second = view first)
    {items : List β} {items' : List β'} (related : List.Forall₂ relation items items') :
    items'.map view' = items.map view := by
  induction related with
  | nil => rfl
  | cons pair _ ih => rw [List.map_cons, List.map_cons, each _ _ pair, ih]

/-- What is kept of related lists is the image of what is kept of the first one. -/
theorem filter_related {β : Type} {relation : β → β → Prop} {keep keep' : β → Bool}
    {change : β → β}
    (each : ∀ first second, relation first second →
      keep' second = keep first ∧ (keep first = true → second = change first))
    {items items' : List β} (related : List.Forall₂ relation items items') :
    items'.filter keep' = (items.filter keep).map change := by
  induction related with
  | nil => rfl
  | cons pair _ ih =>
      obtain ⟨kept, changed⟩ := each _ _ pair
      simp only [List.filter_cons, kept]
      split
      · rename_i isKept
        rw [List.map_cons, ih, changed isKept]
      · exact ih

theorem getElem?_related {β : Type} {relation : β → β → Prop} {items items' : List β}
    (related : List.Forall₂ relation items items') :
    ∀ position : Nat, Option.Rel relation items[position]? items'[position]? := by
  induction related with
  | nil =>
      intro position
      exact .none
  | cons pair _ ih =>
      intro position
      cases position with
      | zero => exact .some pair
      | succ position => simpa using ih position

theorem getLast?_related {β : Type} {relation : β → β → Prop} {items items' : List β}
    (related : List.Forall₂ relation items items') :
    Option.Rel relation items.getLast? items'.getLast? := by
  have backwards := getElem?_related (List.forall₂_reverse_iff.mpr related) 0
  simpa [List.getLast?_eq_head?_reverse, List.head?_eq_getElem?] using backwards

theorem zipIdx_related {β : Type} {relation : β → β → Prop} {items items' : List β}
    (related : List.Forall₂ relation items items') : ∀ start : Nat,
    List.Forall₂ (fun first second => relation first.1 second.1 ∧ second.2 = first.2)
      (items.zipIdx start) (items'.zipIdx start) := by
  induction related with
  | nil =>
      intro start
      exact .nil
  | cons pair _ ih =>
      intro start
      exact .cons ⟨pair, rfl⟩ (ih (start + 1))

/-- What is related to two lists in a row splits where they meet. -/
theorem append_related {β γ : Type} {relation : β → γ → Prop} {first second : List β} :
    ∀ {items : List γ}, List.Forall₂ relation (first ++ second) items →
      ∃ front back, items = front ++ back ∧ List.Forall₂ relation first front ∧
        List.Forall₂ relation second back := by
  induction first with
  | nil =>
      intro items related
      exact ⟨[], items, rfl, .nil, related⟩
  | cons member rest ih =>
      intro items related
      cases related with
      | @cons _ item _ others pair related =>
          obtain ⟨front, back, rfl, relatedFront, relatedBack⟩ := ih related
          exact ⟨item :: front, back, rfl, .cons pair relatedFront, relatedBack⟩

end FlowAlign
