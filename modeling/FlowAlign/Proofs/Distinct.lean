import Mathlib.Data.List.Nodup

/-! Lists in which members count once, and relabellings that keep members apart. -/

namespace FlowAlign

variable {β γ : Type}

/-- A relabelling that keeps the symbols of two sequences apart. -/
def Separates (label : β → γ) (symbols : List β) : Prop :=
  ∀ first ∈ symbols, ∀ second ∈ symbols, label first = label second → first = second

theorem Separates.of_subset {label : β → γ} {symbols fewer : List β}
    (apart : Separates label symbols) (subset : fewer ⊆ symbols) : Separates label fewer :=
  fun first firstMember second secondMember =>
    apart first (subset firstMember) second (subset secondMember)

theorem Separates.map_inj {label : β → γ} : ∀ {first second : List β},
    Separates label (first ++ second) → first.map label = second.map label → first = second := by
  intro first
  induction first with
  | nil =>
      intro second _ equal
      exact (List.map_eq_nil_iff.mp equal.symm).symm
  | cons symbol rest ih =>
      intro second apart equal
      cases second with
      | nil => simp at equal
      | cons other others =>
          simp only [List.map_cons, List.cons.injEq] at equal
          have heads : symbol = other := apart symbol (by simp) other (by simp) equal.1
          have tails : rest = others := by
            refine ih (apart.of_subset ?_) equal.2
            intro value member
            rcases List.mem_append.mp member with early | late
            · simp [early]
            · simp [late]
          rw [heads, tails]

section Labels

variable [DecidableEq β] [DecidableEq γ] {label : β → γ}

theorem contains_map {symbols : List β} {symbol : β}
    (apart : Separates label (symbol :: symbols)) :
    (symbols.map label).contains (label symbol) = symbols.contains symbol := by
  rw [Bool.eq_iff_iff]
  simp only [List.contains_iff_mem, List.mem_map]
  constructor
  · rintro ⟨other, member, same⟩
    have equal : other = symbol := apart other (by simp [member]) symbol (by simp) same
    rwa [← equal]
  · intro member
    exact ⟨symbol, member, rfl⟩

theorem idxOf_map {symbol : β} : ∀ {symbols : List β}, Separates label (symbol :: symbols) →
    (symbols.map label).idxOf (label symbol) = symbols.idxOf symbol := by
  intro symbols
  induction symbols with
  | nil =>
      intro _
      rfl
  | cons first rest ih =>
      intro apart
      have tail := ih (apart.of_subset (List.cons_subset_cons _ (List.subset_cons_self _ _)))
      have same : label first = label symbol ↔ first = symbol :=
        ⟨apart first (by simp) symbol (by simp), fun equal => equal ▸ rfl⟩
      simp only [List.map_cons, List.idxOf_cons, beq_eq_decide, same, tail]

theorem filter_map_ne {symbol : β} {symbols : List β}
    (apart : Separates label (symbol :: symbols)) :
    (symbols.map label).filter (fun other => !other == label symbol) =
      (symbols.filter fun other => !other == symbol).map label := by
  rw [List.filter_map]
  congr 1
  apply List.filter_congr
  intro other member
  have same : label other = label symbol ↔ other = symbol :=
    ⟨apart other (by simp [member]) symbol (by simp), fun equal => equal ▸ rfl⟩
  simp [same]

theorem eraseDups_map : ∀ symbols : List β, Separates label symbols →
    (symbols.map label).eraseDups = symbols.eraseDups.map label
  | [], _ => rfl
  | symbol :: rest, apart => by
      have shorter : (rest.filter fun other => !other == symbol).length ≤ rest.length :=
        List.length_filter_le _ _
      have fewer : Separates label (rest.filter fun other => !other == symbol) :=
        apart.of_subset fun other member => by simp [(List.mem_filter.mp member).1]
      rw [List.map_cons, List.eraseDups_cons, List.eraseDups_cons, filter_map_ne apart,
        eraseDups_map _ fewer, List.map_cons]
  termination_by symbols => symbols.length

end Labels

theorem nodup_eraseDups [BEq β] [LawfulBEq β] : ∀ symbols : List β, symbols.eraseDups.Nodup
  | [] => List.nodup_nil
  | symbol :: rest => by
      have shorter : (rest.filter fun other => !other == symbol).length ≤ rest.length :=
        List.length_filter_le _ _
      rw [List.eraseDups_cons, List.nodup_cons]
      refine ⟨?_, nodup_eraseDups _⟩
      simp [List.mem_eraseDups]
  termination_by symbols => symbols.length

/-- Members that pass a test keep the order of their first places. -/
theorem idxOf_lt_of_filter [BEq β] [LawfulBEq β] {test : β → Bool} {symbols : List β} {first second : β}
    (passes : test first = true) (passes' : test second = true)
    (before : (symbols.filter test).idxOf first < (symbols.filter test).idxOf second) :
    symbols.idxOf first < symbols.idxOf second := by
  induction symbols with
  | nil => simp at before
  | cons symbol rest ih =>
      rw [List.filter_cons] at before
      by_cases isSecond : symbol = second
      · subst isSecond
        rw [if_pos passes', List.idxOf_cons_self] at before
        exact absurd before (Nat.not_lt_zero _)
      · by_cases isFirst : symbol = first
        · subst isFirst
          rw [List.idxOf_cons_self, List.idxOf_cons_ne _ isSecond]
          exact Nat.succ_pos _
        · rw [List.idxOf_cons_ne _ isFirst, List.idxOf_cons_ne _ isSecond]
          refine Nat.succ_lt_succ (ih ?_)
          split at before
          · rw [List.idxOf_cons_ne _ isFirst, List.idxOf_cons_ne _ isSecond] at before
            exact Nat.lt_of_succ_lt_succ before
          · exact before

/-- Without repetitions, members stand in the order of their first places. -/
theorem eraseDups_rising [BEq β] [LawfulBEq β] : ∀ symbols : List β,
    symbols.eraseDups.Pairwise fun first second => symbols.idxOf first < symbols.idxOf second
  | [] => List.Pairwise.nil
  | symbol :: rest => by
      have shorter : (rest.filter fun other => !other == symbol).length ≤ rest.length :=
        List.length_filter_le _ _
      have other {later : β}
          (member : later ∈ (rest.filter fun other => !other == symbol).eraseDups) :
          (!later == symbol) = true := (List.mem_filter.mp (List.mem_eraseDups.mp member)).2
      have differs {later : β} (passes : (!later == symbol) = true) : symbol ≠ later := by
        rintro rfl
        simp at passes
      rw [List.eraseDups_cons, List.pairwise_cons]
      constructor
      · intro later member
        rw [List.idxOf_cons_self, List.idxOf_cons_ne _ (differs (other member))]
        exact Nat.succ_pos _
      · refine (eraseDups_rising _).imp_of_mem fun member member' before => ?_
        rw [List.idxOf_cons_ne _ (differs (other member)),
          List.idxOf_cons_ne _ (differs (other member'))]
        exact Nat.succ_lt_succ (idxOf_lt_of_filter (other member) (other member') before)
  termination_by symbols => symbols.length

end FlowAlign
