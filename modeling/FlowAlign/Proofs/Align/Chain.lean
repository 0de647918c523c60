import FlowAlign.Align.Chain

/-!
The chains that are kept rise: positions and values grow from each element to the next. Of all rising
chains of a length the one kept has the least values from the last one on, so that the longest one kept
is as long as any.
-/

namespace FlowAlign.Align

/-- A chain of elements of a list, the last first, up to a position of the list. -/
structure Rising (values : List Int) (bound : Nat) (chain : Chain) : Prop where
  ordered : chain.Pairwise fun later earlier => earlier.1 < later.1 ∧ earlier.2 < later.2
  taken : ∀ entry ∈ chain, values[entry.2]? = some entry.1 ∧ entry.2 < bound

namespace Rising

variable {values : List Int} {bound position : Nat} {value : Int} {chain : Chain}

theorem nil : Rising values bound [] :=
  ⟨.nil, by simp⟩

theorem mono (rising : Rising values bound chain) {higher : Nat} (above : bound ≤ higher) :
    Rising values higher chain := by
  refine ⟨rising.ordered, ?_⟩
  intro entry member
  have found := rising.taken entry member
  exact ⟨found.1, by omega⟩

theorem below_of_ends (rising : Rising values bound chain)
    (ends : endsAtLeast chain value = false) : ∀ entry ∈ chain, entry.1 < value := by
  cases chain with
  | nil => simp
  | cons last rest =>
      have lastBelow : last.1 < value := by simpa [endsAtLeast] using ends
      intro entry member
      rcases List.mem_cons.mp member with rfl | earlier
      · exact lastBelow
      · have step := (List.pairwise_cons.mp rising.ordered).1 entry earlier
        omega

theorem extend (rising : Rising values position chain) (found : values[position]? = some value)
    (ends : endsAtLeast chain value = false) :
    Rising values (position + 1) ((value, position) :: chain) := by
  constructor
  · refine List.pairwise_cons.mpr ⟨?_, rising.ordered⟩
    intro entry member
    exact ⟨rising.below_of_ends ends entry member, (rising.taken entry member).2⟩
  · intro entry member
    rcases List.mem_cons.mp member with rfl | earlier
    · exact ⟨found, by omega⟩
    · exact (rising.mono (Nat.le_succ position)).taken entry earlier

theorem drop (rising : Rising values bound chain) (count : Nat) :
    Rising values bound (chain.drop count) :=
  ⟨rising.ordered.drop, fun entry member => rising.taken entry (List.mem_of_mem_drop member)⟩

theorem tail {last : Int × Nat} (rising : Rising values bound (last :: chain)) :
    Rising values bound chain :=
  rising.drop 1

theorem before_last {last : Int × Nat} (rising : Rising values bound (last :: chain)) :
    Rising values last.2 chain := by
  refine ⟨rising.ordered.tail, ?_⟩
  intro entry member
  exact ⟨(rising.taken entry (List.mem_cons_of_mem _ member)).1,
    ((List.pairwise_cons.mp rising.ordered).1 entry member).2⟩

/-- A chain that may take one element more ends with it, or does without it. -/
theorem before_or_newest (rising : Rising values (position + 1) chain)
    (found : values[position]? = some value) :
    Rising values position chain ∨ ∃ rest, chain = (value, position) :: rest ∧
      Rising values position rest ∧ endsAtLeast rest value = false := by
  cases chain with
  | nil => exact Or.inl .nil
  | cons last rest =>
      obtain ⟨isLast, lastBound⟩ := rising.taken last List.mem_cons_self
      have below := (List.pairwise_cons.mp rising.ordered).1
      by_cases newest : last.2 = position
      · rw [newest, found] at isLast
        obtain rfl : last = (value, position) := Prod.ext (Option.some.inj isLast).symm newest
        refine Or.inr ⟨rest, rfl, rising.before_last, ?_⟩
        cases rest with
        | nil => rfl
        | cons next others =>
            have step := (below next List.mem_cons_self).1
            simpa [endsAtLeast] using step
      · refine Or.inl ⟨rising.ordered, ?_⟩
        intro entry member
        refine ⟨(rising.taken entry member).1, ?_⟩
        rcases List.mem_cons.mp member with rfl | earlier
        · omega
        · have step := (below entry earlier).2
          omega

end Rising

theorem place_rising {values : List Int} {value : Int} {position : Nat}
    (found : values[position]? = some value) : ∀ (chains : List Chain) (shorter : Chain),
    Rising values position shorter → endsAtLeast shorter value = false →
    (∀ chain ∈ chains, Rising values position chain) →
    ∀ chain ∈ place value position shorter chains, Rising values (position + 1) chain := by
  intro chains
  induction chains with
  | nil =>
      intro shorter rising ends _ chain member
      obtain rfl : chain = (value, position) :: shorter := by simpa [place] using member
      exact rising.extend found ends
  | cons first longer ih =>
      intro shorter rising ends all chain member
      simp only [place] at member
      split at member
      · rcases List.mem_cons.mp member with rfl | kept
        · exact rising.extend found ends
        · exact (all chain (List.mem_cons_of_mem _ kept)).mono (Nat.le_succ position)
      · rename_i firstEnds
        rcases List.mem_cons.mp member with rfl | later
        · exact (all chain List.mem_cons_self).mono (Nat.le_succ position)
        · exact ih first (all first List.mem_cons_self) (by simpa using firstEnds)
            (fun other kept => all other (List.mem_cons_of_mem _ kept)) chain later

/-- The chains by their length, the empty one first. -/
def levels (chains : List Chain) : List Chain :=
  [] :: chains

/-- An element goes behind the longest chain that ends below it, and takes the place of the next one. -/
structure Placement (value : Int) (position : Nat) (before after : List Chain) (length : Nat)
    (chain : Chain) : Prop where
  found : before[length]? = some chain
  lower : ∀ level ≤ length, ∀ other, before[level]? = some other → endsAtLeast other value = false
  next : ∀ other, before[length + 1]? = some other → endsAtLeast other value = true
  looked : ∀ level, after[level]? =
    if level = length + 1 then some ((value, position) :: chain) else before[level]?

theorem exists_placement (value : Int) (position : Nat) : ∀ (chains : List Chain) (shorter : Chain),
    endsAtLeast shorter value = false → ∃ length chain,
      Placement value position (shorter :: chains)
        (shorter :: place value position shorter chains) length chain := by
  intro chains
  induction chains with
  | nil =>
      intro shorter ends
      refine ⟨0, shorter, rfl, ?_, by simp, ?_⟩
      · intro level atMost other found
        obtain rfl : level = 0 := by omega
        obtain rfl : shorter = other := by simpa using found
        exact ends
      · intro level
        match level with
        | 0 => rfl
        | 1 => rfl
        | level + 2 => simp [place]
  | cons first longer ih =>
      intro shorter ends
      by_cases stops : endsAtLeast first value = true
      · refine ⟨0, shorter, rfl, ?_, ?_, ?_⟩
        · intro level atMost other found
          obtain rfl : level = 0 := by omega
          obtain rfl : shorter = other := by simpa using found
          exact ends
        · intro other found
          obtain rfl : first = other := by simpa using found
          exact stops
        · intro level
          simp only [place, stops, if_true]
          match level with
          | 0 => rfl
          | 1 => rfl
          | level + 2 => simp
      · obtain ⟨length, chain, later⟩ := ih first (by simpa using stops)
        refine ⟨length + 1, chain, by simpa using later.found, ?_, ?_, ?_⟩
        · intro level atMost other found
          cases level with
          | zero =>
              obtain rfl : shorter = other := by simpa using found
              exact ends
          | succ level => exact later.lower level (by omega) other (by simpa using found)
        · intro other found
          exact later.next other (by simpa using found)
        · intro level
          simp only [place, stops, Bool.false_eq_true, if_false]
          cases level with
          | zero => simp
          | succ level =>
              rw [List.getElem?_cons_succ, List.getElem?_cons_succ, later.looked level]
              simp only [Nat.add_right_cancel_iff]

/-- Values that are others, or stand before them in the order of the first place where they differ. -/
def AtMost (values others : List Int) : Prop :=
  values = others ∨ List.Lex (fun value other => value < other) values others

theorem atMost_cons {value other : Int} {values others : List Int} :
    AtMost (value :: values) (other :: others) ↔
      value < other ∨ value = other ∧ AtMost values others := by
  rw [AtMost, AtMost, List.cons.injEq, List.cons_lex_cons_iff]
  constructor
  · rintro (⟨same, rest⟩ | below | ⟨same, rest⟩)
    · exact Or.inr ⟨same, Or.inl rest⟩
    · exact Or.inl below
    · exact Or.inr ⟨same, Or.inr rest⟩
  · rintro (below | ⟨same, rest | rest⟩)
    · exact Or.inr (Or.inl below)
    · exact Or.inl ⟨same, rest⟩
    · exact Or.inr (Or.inr ⟨same, rest⟩)

/-- What is kept of the elements before a position: for every length a chain, if there is one, and the
one whose values are the least from the last one on. -/
structure Kept (values : List Int) (bound : Nat) (chains : List Chain) : Prop where
  rising : ∀ chain ∈ chains, Rising values bound chain
  length_eq : ∀ (level : Nat) (chain : Chain), (levels chains)[level]? = some chain →
    chain.length = level
  least : ∀ other, Rising values bound other → ∃ chain,
    (levels chains)[other.length]? = some chain ∧ AtMost (chain.map Prod.fst) (other.map Prod.fst)

theorem ends_of_atMost {chain other : Chain} {value : Int} (length : chain.length = other.length)
    (least : AtMost (chain.map Prod.fst) (other.map Prod.fst))
    (ends : endsAtLeast other value = false) : endsAtLeast chain value = false := by
  cases chain with
  | nil => rfl
  | cons last rest =>
      cases other with
      | nil => simp at length
      | cons otherLast otherRest =>
          simp only [endsAtLeast, decide_eq_false_iff_not] at ends ⊢
          rcases atMost_cons.mp least with below | ⟨same, _⟩
          · omega
          · omega

namespace Kept

variable {values : List Int} {position length : Nat} {value : Int} {chains after : List Chain}
  {chain other : Chain}

theorem nil (values : List Int) : Kept values 0 [] := by
  refine ⟨by simp, ?_, ?_⟩
  · intro level chain found
    obtain ⟨inside, rfl⟩ := List.getElem?_eq_some_iff.mp found
    obtain rfl : level = 0 := by simpa [levels] using inside
    rfl
  · intro other rising
    cases other with
    | nil => exact ⟨[], rfl, Or.inl rfl⟩
    | cons last rest =>
        have below := (rising.taken last List.mem_cons_self).2
        omega

/-- A chain that ends below an element is no longer than the one that the element goes behind. -/
theorem length_le (kept : Kept values position chains)
    (placed : Placement value position (levels chains) after length chain)
    (rising : Rising values position other) (ends : endsAtLeast other value = false) :
    other.length ≤ length := by
  apply Nat.le_of_not_lt
  intro longer
  -- its front part alone is as long as a chain that ends at the value or above it
  let front := other.drop (other.length - (length + 1))
  have frontLength : front.length = length + 1 := by
    rw [List.length_drop]
    omega
  have frontEnds : endsAtLeast front value = false := by
    cases isFront : front with
    | nil => rfl
    | cons last rest =>
        have member : last ∈ other := List.mem_of_mem_drop (isFront ▸ List.mem_cons_self)
        simpa [endsAtLeast] using rising.below_of_ends ends last member
  obtain ⟨best, found, least⟩ := kept.least front (rising.drop _)
  rw [frontLength] at found
  have bestEnds := ends_of_atMost ((kept.length_eq _ _ found).trans frontLength.symm) least frontEnds
  rw [placed.next best found] at bestEnds
  cases bestEnds

/-- A chain without the new element is still matched: the one that is replaced ended no lower. -/
theorem least_before (kept : Kept values position chains)
    (placed : Placement value position (levels chains) after length chain)
    (rising : Rising values position other) :
    ∃ best, after[other.length]? = some best ∧ AtMost (best.map Prod.fst) (other.map Prod.fst) := by
  rw [placed.looked other.length]
  split
  · rename_i here
    refine ⟨_, rfl, ?_⟩
    cases other with
    | nil => cases here
    | cons last rest =>
        rw [List.length_cons, Nat.add_right_cancel_iff] at here
        obtain ⟨shorter, isShorter, restLeast⟩ := kept.least rest rising.tail
        rw [here, placed.found] at isShorter
        obtain rfl := Option.some.inj isShorter
        rw [List.map_cons, List.map_cons, atMost_cons]
        by_cases above : value ≤ last.1
        · rcases Int.lt_or_eq_of_le above with below | same
          · exact Or.inl below
          · exact Or.inr ⟨same, restLeast⟩
        · have ends : endsAtLeast (last :: rest) value = false := by
            simpa [endsAtLeast] using above
          have atMost := kept.length_le placed rising ends
          rw [List.length_cons] at atMost
          omega
  · exact kept.least other rising

/-- A chain that ends with the new element is matched by it, or by a chain that ends below it. -/
theorem least_newest (kept : Kept values position chains)
    (placed : Placement value position (levels chains) after length chain)
    (rising : Rising values position other) (ends : endsAtLeast other value = false) :
    ∃ best, after[other.length + 1]? = some best ∧
      AtMost (best.map Prod.fst) (((value, position) :: other).map Prod.fst) := by
  have atMost := kept.length_le placed rising ends
  rw [placed.looked (other.length + 1)]
  by_cases longest : other.length = length
  · obtain ⟨shorter, isShorter, least⟩ := kept.least other rising
    rw [longest, placed.found] at isShorter
    obtain rfl := Option.some.inj isShorter
    refine ⟨_, if_pos (by rw [longest]), ?_⟩
    rw [List.map_cons, List.map_cons, atMost_cons]
    exact Or.inr ⟨rfl, least⟩
  · have inside := (List.getElem?_eq_some_iff.mp placed.found).1
    obtain ⟨best, isBest⟩ : ∃ best, (levels chains)[other.length + 1]? = some best :=
      ⟨_, List.getElem?_eq_getElem (by omega)⟩
    have bestLength := kept.length_eq _ best isBest
    have bestEnds := placed.lower (other.length + 1) (by omega) best isBest
    refine ⟨best, by simp [longest, isBest], ?_⟩
    cases best with
    | nil => cases bestLength
    | cons last rest =>
        have below : last.1 < value := by simpa [endsAtLeast] using bestEnds
        rw [List.map_cons, List.map_cons, atMost_cons]
        exact Or.inl below

theorem place (kept : Kept values position chains) (found : values[position]? = some value) :
    Kept values (position + 1) (place value position [] chains) := by
  obtain ⟨length, chain, placed⟩ := exists_placement value position chains [] rfl
  refine ⟨place_rising found chains [] .nil rfl kept.rising, ?_, ?_⟩
  · intro level other isOther
    rw [levels, placed.looked level] at isOther
    split at isOther
    · rename_i here
      obtain rfl := Option.some.inj isOther
      rw [List.length_cons, kept.length_eq length chain placed.found, here]
    · exact kept.length_eq level other isOther
  · intro other rising
    rcases rising.before_or_newest found with before | ⟨rest, rfl, restRising, restEnds⟩
    · exact kept.least_before placed before
    · exact kept.least_newest placed restRising restEnds

end Kept

theorem chainsFrom_kept {values : List Int} : ∀ (rest : List Int) (position : Nat)
    (chains : List Chain), values.drop position = rest → position + rest.length = values.length →
    Kept values position chains → Kept values values.length (chainsFrom position chains rest) := by
  intro rest
  induction rest with
  | nil =>
      intro position chains _ reached kept
      obtain rfl : position = values.length := by simpa using reached
      exact kept
  | cons value rest ih =>
      intro position chains remaining reached kept
      have found : values[position]? = some value := by
        rw [← List.head?_drop, remaining, List.head?_cons]
      have tail : values.drop (position + 1) = rest := by
        rw [← List.tail_drop, remaining, List.tail_cons]
      rw [List.length_cons] at reached
      exact ih (position + 1) (place value position [] chains) tail (by omega) (kept.place found)

/-- What is found is as long as any rising chain, and has the least values from the last one on among
those that are as long. -/
theorem longestChain_spec (values : List Int) :
    ∃ chain : Chain, longestChain values = (chain.map Prod.snd).reverse ∧
      Rising values values.length chain ∧
      ∀ other, Rising values values.length other → other.length ≤ chain.length ∧
        (other.length = chain.length → AtMost (chain.map Prod.fst) (other.map Prod.fst)) := by
  let chains := chainsFrom 0 [] values
  have kept : Kept values values.length chains :=
    chainsFrom_kept values 0 [] rfl (by simp) (.nil values)
  obtain ⟨chain, isLast, isChain⟩ : ∃ chain, chains.getLastD [] = chain ∧
      (levels chains)[chains.length]? = some chain := by
    refine ⟨_, rfl, ?_⟩
    have last : (levels chains).getLast? = some (chains.getLastD []) := by
      rw [levels, List.getLast?_cons, List.getLastD_eq_getLast?]
    rwa [List.getLast?_eq_getElem?] at last
  have length := kept.length_eq _ chain isChain
  refine ⟨chain, by rw [longestChain, isLast], ?_, ?_⟩
  · rcases List.mem_cons.mp (List.mem_of_getElem? isChain) with rfl | member
    · exact .nil
    · exact kept.rising chain member
  · intro other rising
    obtain ⟨best, isBest, least⟩ := kept.least other rising
    have inside : other.length < chains.length + 1 := (List.getElem?_eq_some_iff.mp isBest).1
    refine ⟨by omega, ?_⟩
    intro same
    rw [same, length, isChain] at isBest
    obtain rfl := Option.some.inj isBest
    exact least

theorem longestChain_rising (values : List Int) :
    ∃ chain : List (Int × Nat), longestChain values = chain.map Prod.snd ∧
      chain.Pairwise (fun earlier later => earlier.1 < later.1 ∧ earlier.2 < later.2) ∧
      ∀ entry ∈ chain, values[entry.2]? = some entry.1 := by
  obtain ⟨chain, found, rising, _⟩ := longestChain_spec values
  refine ⟨chain.reverse, by rw [found, List.map_reverse], ?_, ?_⟩
  · exact List.pairwise_reverse.mpr rising.ordered
  · intro entry member
    exact (rising.taken entry (List.mem_reverse.mp member)).1

end FlowAlign.Align
