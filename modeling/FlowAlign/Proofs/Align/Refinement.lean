import FlowAlign.Proofs.Align.Eligible
import Mathlib.Data.List.Chain

/-!
Refinement round by round. Rounds are numbered from one on, each starts from the alignment that the one
before came to, and nothing ends them but a stable round or the limit. A higher limit changes nothing
after a stable round, and a round that comes to where it started would be repeated by any further one.
-/

namespace FlowAlign.Align

/-- A round of refinement: its number, the alignment it starts from with the cost of the round before, and
the alignment and the cost it comes to. -/
structure Round (α : Type) where
  number : Nat
  start : List Step
  previous : Option α
  refined : List Step
  cost : α

variable {α : Type} [Quantity α]

def Round.isStable (round : Round α) : Bool :=
  Align.isStable round.start round.refined round.previous round.cost

/-- The alignment that some rounds come to. -/
def endOf (base : List Step) (made : List (Round α)) : List Step :=
  (made.getLast?.map Round.refined).getD base

omit [Quantity α] in
theorem endOf_cons (base : List Step) (round : Round α) (rest : List (Round α)) :
    endOf base (round :: rest) = endOf round.refined rest := by
  rw [endOf, endOf, List.getLast?_cons]
  cases rest.getLast? with
  | none => rfl
  | some last => rfl

/-- The rounds made under a limit, behind some number of rounds, and what they end with. -/
inductive Refines (step : List Step → Except Fault (List Step × α)) :
    Nat → Nat → List Step → Option α → List (Round α) → Refinement → Prop
  | limited {count alignment previous} :
      Refines step 0 count alignment previous []
        { iterations := count, stable := false, result := .ok alignment }
  | failed {fuel count alignment previous fault} : step alignment = .error fault →
      Refines step (fuel + 1) count alignment previous []
        { iterations := count, stable := false, result := .error fault }
  | settled {fuel count alignment previous refined cost} : step alignment = .ok (refined, cost) →
      isStable alignment refined previous cost = true →
      Refines step (fuel + 1) count alignment previous
        [{ number := count + 1, start := alignment, previous, refined, cost }]
        { iterations := count + 1, stable := true, result := .ok refined }
  | again {fuel count alignment previous refined cost made refinement} :
      step alignment = .ok (refined, cost) → isStable alignment refined previous cost = false →
      Refines step fuel (count + 1) refined (some cost) made refinement →
      Refines step (fuel + 1) count alignment previous
        ({ number := count + 1, start := alignment, previous, refined, cost } :: made) refinement

theorem exists_refines (step : List Step → Except Fault (List Step × α)) :
    ∀ (fuel count : Nat) (alignment : List Step) (previous : Option α),
      ∃ made, Refines step fuel count alignment previous made
        (refine step fuel count alignment previous) := by
  intro fuel
  induction fuel with
  | zero => exact fun count alignment previous => ⟨[], .limited⟩
  | succ fuel ih =>
      intro count alignment previous
      simp only [refine]
      split
      · rename_i fault failed
        exact ⟨[], .failed failed⟩
      · rename_i refined cost performed
        split
        · rename_i stable
          exact ⟨_, .settled performed stable⟩
        · rename_i unstable
          obtain ⟨made, later⟩ := ih (count + 1) refined (some cost)
          exact ⟨_, .again performed (by simpa using unstable) later⟩

namespace Refines

variable {step : List Step → Except Fault (List Step × α)} {fuel count : Nat}
  {alignment : List Step} {previous : Option α} {made : List (Round α)}
  {refinement : Refinement}

theorem iterations_eq (refines : Refines step fuel count alignment previous made refinement) :
    refinement.iterations = count + made.length := by
  induction refines with
  | limited => rfl
  | failed _ => rfl
  | settled _ _ => rfl
  | again _ _ _ ih =>
      rw [ih, List.length_cons]
      omega

theorem numbers_eq (refines : Refines step fuel count alignment previous made refinement) :
    made.map Round.number = List.range' (count + 1) made.length := by
  induction refines with
  | limited => rfl
  | failed _ => rfl
  | settled _ _ => rfl
  | again _ _ _ ih => rw [List.map_cons, ih, List.length_cons, List.range'_succ]

theorem length_le (refines : Refines step fuel count alignment previous made refinement) :
    made.length ≤ fuel := by
  induction refines with
  | limited => exact Nat.le_refl _
  | failed _ => exact Nat.zero_le _
  | settled _ _ => exact Nat.succ_le_succ (Nat.zero_le _)
  | again _ _ _ ih => exact Nat.succ_le_succ ih

theorem performed (refines : Refines step fuel count alignment previous made refinement) :
    ∀ round ∈ made, step round.start = .ok (round.refined, round.cost) := by
  induction refines with
  | limited => simp
  | failed _ => simp
  | settled performed _ => simpa using performed
  | again performed _ _ ih => exact List.forall_mem_cons.mpr ⟨performed, ih⟩

theorem begins (refines : Refines step fuel count alignment previous made refinement)
    {round : Round α} (first : made.head? = some round) :
    round.start = alignment ∧ round.previous = previous := by
  cases refines with
  | limited => cases first
  | failed _ => cases first
  | settled _ _ => cases first; exact ⟨rfl, rfl⟩
  | again _ _ _ => cases first; exact ⟨rfl, rfl⟩

theorem continued (refines : Refines step fuel count alignment previous made refinement) :
    made.IsChain fun earlier later => earlier.isStable = false ∧ later.start = earlier.refined ∧
      later.previous = some earlier.cost := by
  induction refines with
  | limited => exact .nil
  | failed _ => exact .nil
  | settled _ _ => exact .singleton _
  | again _ unstable later ih =>
      rw [List.isChain_cons]
      exact ⟨fun round first => ⟨unstable, later.begins first⟩, ih⟩

theorem result_eq (refines : Refines step fuel count alignment previous made refinement)
    {refined : List Step} (succeeded : refinement.result = .ok refined) :
    refined = endOf alignment made := by
  induction refines with
  | limited => exact (Except.ok.inj succeeded).symm
  | failed _ => cases succeeded
  | settled _ _ => exact (Except.ok.inj succeeded).symm
  | again _ _ _ ih => rw [endOf_cons, ih succeeded]

theorem stable_iff (refines : Refines step fuel count alignment previous made refinement) :
    refinement.stable = true ↔ ∃ round, made.getLast? = some round ∧ round.isStable = true := by
  induction refines with
  | limited => simp
  | failed _ => simp
  | settled _ stable => simpa [Round.isStable] using stable
  | @again _ _ _ _ refined cost made _ _ unstable _ ih =>
      rw [ih, List.getLast?_cons]
      cases made.getLast? with
      | none => simpa [Round.isStable] using unstable
      | some last => simp

theorem length_eq (refines : Refines step fuel count alignment previous made refinement)
    {refined : List Step} (succeeded : refinement.result = .ok refined)
    (unstable : refinement.stable = false) : made.length = fuel := by
  induction refines with
  | limited => rfl
  | failed _ => cases succeeded
  | settled _ _ => cases unstable
  | again _ _ _ ih => rw [List.length_cons, ih succeeded unstable]

theorem ne_nil (refines : Refines step (fuel + 1) count alignment previous made refinement)
    {refined : List Step} (succeeded : refinement.result = .ok refined) : made ≠ [] := by
  cases refines with
  | failed _ => cases succeeded
  | settled _ _ => exact List.cons_ne_nil _ _
  | again _ _ _ => exact List.cons_ne_nil _ _

/-- Behind a stable round a higher limit admits no other one. -/
theorem lasting (refines : Refines step fuel count alignment previous made refinement)
    (stable : refinement.stable = true) :
    ∀ more, fuel ≤ more → refine step more count alignment previous = refinement := by
  induction refines with
  | limited => cases stable
  | failed _ => cases stable
  | settled performed settles =>
      intro more atMost
      obtain ⟨more, rfl⟩ := Nat.exists_eq_add_of_le' (Nat.le_trans (Nat.le_add_left 1 _) atMost)
      simp [refine, performed, settles]
  | again performed unstable _ ih =>
      intro more atMost
      obtain ⟨more, rfl⟩ := Nat.exists_eq_add_of_le' (Nat.le_trans (Nat.le_add_left 1 _) atMost)
      simp only [refine, performed, unstable, Bool.false_eq_true, if_false]
      exact ih stable more (by omega)

end Refines

/-- A matcher that is asked for no more than so many rounds. -/
def Matcher.upTo (matcher : Matcher α) (limit : Int) : Matcher α :=
  { matcher with options := { matcher.options with maxIterations := limit } }

section Compute

variable {options : Options α} {primary secondary : FlowGraph} {matcher : Matcher α}

theorem Ready.upTo (ready : Ready matcher options primary secondary) (limit : Int) :
    Ready (matcher.upTo limit) { options with maxIterations := limit } primary secondary := by
  refine ⟨?_, ready.primary_eq, ready.secondary_eq, ready.sound, ready.costs_eq⟩
  rw [Matcher.upTo, ready.options_eq]

theorem conclude_upTo (ready : Ready matcher options primary secondary) (limit : Int)
    {steps : List Step} (path : Path 0 0 steps primary.size secondary.size) :
    conclude (matcher.upTo limit) matcher.measure steps =
      .ok (alignmentOf options primary secondary steps) :=
  conclude_eq (ready.upTo limit) ready.sound path

variable (ready : Ready matcher options primary secondary)
  (full : isDegraded options primary secondary = false) {base : List Step} {total : α}
  (based : globalAlignment (costsOf options primary secondary).base options.gapCost =
    .ok (base, total))

include ready full based

theorem compute_single (single : ¬(1 < primary.size ∨ 1 < secondary.size)) (limit : Int)
    (path : Path 0 0 base primary.size secondary.size) :
    compute (matcher.upTo limit) =
      { iterations := 0, notes := [], result := .ok (alignmentOf options primary secondary base) } := by
  have costs : (matcher.upTo limit).costs = some (costsOf options primary secondary) := by
    rw [Matcher.upTo, ready.costs_eq, full]
    rfl
  have concluded := conclude_upTo ready limit path
  rw [compute, costs]
  simp only [computeFull, (ready.upTo limit).options_eq, (ready.upTo limit).primary_eq,
    (ready.upTo limit).secondary_eq, based, single, if_false]
  rw [← concluded]
  rfl

theorem compute_refined (several : 1 < primary.size ∨ 1 < secondary.size) (limit : Int)
    {refinement : Refinement} {refined : List Step}
    (made : refine (refineOnce options (costsOf options primary secondary) primary secondary)
      limit.toNat 0 base none = refinement)
    (succeeded : refinement.result = .ok refined)
    (path : Path 0 0 refined primary.size secondary.size) :
    compute (matcher.upTo limit) =
      { iterations := refinement.iterations
        notes := refinementNotes limit refinement
        result := .ok (alignmentOf options primary secondary refined) } := by
  have costs : (matcher.upTo limit).costs = some (costsOf options primary secondary) := by
    rw [Matcher.upTo, ready.costs_eq, full]
    rfl
  have concluded := conclude_upTo ready limit path
  have unlimited : refineOnce { options with maxIterations := limit } =
      refineOnce options := rfl
  rw [compute, costs]
  simp only [computeFull, (ready.upTo limit).options_eq, (ready.upTo limit).primary_eq,
    (ready.upTo limit).secondary_eq, based, several, if_true, unlimited, made, succeeded]
  rw [← concluded]
  rfl

end Compute

/-- What the rounds of a run are: each aligns anew under the costs adjusted to the alignment it starts
from, the first starts from the base alignment, and only the last may be stable. -/
structure RoundsOf (options : Options Rat) (costs : Costs Rat) (primary secondary : FlowGraph)
    (base : List Step) (limit : Int) (made : List (Round Rat)) : Prop where
  numbers : made.map Round.number = List.range' 1 made.length
  begins : ∀ round, made.head? = some round → round.start = base ∧ round.previous = none
  performed : ∀ round ∈ made, ∃ adjusted,
    refinedCosts options costs primary secondary (partnersOf primary.size round.start) =
      .ok adjusted ∧
    globalAlignment adjusted options.gapCost = .ok (round.refined, round.cost)
  continued : made.IsChain fun earlier later => earlier.isStable = false ∧
    later.start = earlier.refined ∧ later.previous = some earlier.cost
  atMost : (made.length : Int) ≤ max limit 0
  none_iff : made = [] ↔ limit ≤ 0 ∨ primary.size = 1 ∧ secondary.size = 1
  stops : made ≠ [] → (made.length : Int) < limit →
    ∃ round, made.getLast? = some round ∧ round.isStable = true

section Run

variable {options : Options Rat} {primary secondary : FlowGraph}

theorem refineOnce_parts {costs : Costs Rat} {steps refined : List Step} {cost : Rat}
    (performed : refineOnce options costs primary secondary steps = .ok (refined, cost)) :
    ∃ adjusted,
      refinedCosts options costs primary secondary (partnersOf primary.size steps) = .ok adjusted ∧
      globalAlignment adjusted options.gapCost = .ok (refined, cost) := by
  obtain ⟨adjusted, isAdjusted, aligned⟩ := Outcome.bind_eq_ok performed
  refine ⟨adjusted, isAdjusted, ?_⟩
  cases found : globalAlignment adjusted options.gapCost with
  | error fault => simp [found, Except.mapError] at aligned
  | ok result => simpa [found, Except.mapError] using aligned

theorem roundsOf_refines (several : 1 < primary.size ∨ 1 < secondary.size) {costs : Costs Rat}
    {base refined : List Step} {limit : Int} {made : List (Round Rat)} {refinement : Refinement}
    (refines : Refines (refineOnce options costs primary secondary) limit.toNat 0 base none made
      refinement)
    (succeeded : refinement.result = .ok refined) :
    RoundsOf options costs primary secondary base limit made := by
  have atMost := refines.length_le
  refine ⟨refines.numbers_eq, fun _ first => refines.begins first, ?_, refines.continued, by omega,
    ?_, ?_⟩
  · exact fun round member => refineOnce_parts (refines.performed round member)
  · constructor
    · rintro rfl
      by_cases positive : limit ≤ 0
      · exact Or.inl positive
      · obtain ⟨more, isMore⟩ := Nat.exists_eq_add_of_le' (show 1 ≤ limit.toNat by omega)
        rw [isMore] at refines
        exact (refines.ne_nil succeeded rfl).elim
    · rintro (negative | single)
      · have none' : made.length = 0 := by omega
        exact List.length_eq_zero_iff.mp none'
      · omega
  · intro _ below
    rw [← refines.stable_iff]
    by_contra unstable
    have length := refines.length_eq succeeded (by simpa using unstable)
    omega

variable (primaryFormed : primary.WellFormed) (secondaryFormed : secondary.WellFormed)

include primaryFormed secondaryFormed

theorem roundsOf_single (single : ¬(1 < primary.size ∨ 1 < secondary.size)) (costs : Costs Rat)
    (base : List Step) (limit : Int) :
    RoundsOf options costs primary secondary base limit [] := by
  have primaryPos := primaryFormed.size_pos
  have secondaryPos := secondaryFormed.size_pos
  refine ⟨rfl, by simp, by simp, .nil, by simp, ?_, by simp⟩
  simp only [true_iff]
  omega

/-- Over exact rationals no round fails. -/
theorem exists_rounds (limit : Nat) {base : List Step}
    (path : Path 0 0 base primary.size secondary.size) :
    ∃ made refinement refined,
      refine (refineOnce options (costsOf options primary secondary) primary secondary) limit 0 base
        none = refinement ∧
      Refines (refineOnce options (costsOf options primary secondary) primary secondary) limit 0 base
        none made refinement ∧
      refinement.result = .ok refined ∧ Path 0 0 refined primary.size secondary.size := by
  obtain ⟨made, refines⟩ := exists_refines
    (refineOnce options (costsOf options primary secondary) primary secondary) limit 0 base none
  have keeps : ∀ steps, Path 0 0 steps primary.size secondary.size → ∃ refined cost,
      refineOnce options (costsOf options primary secondary) primary secondary steps =
        .ok (refined, cost) ∧ Path 0 0 refined primary.size secondary.size := by
    intro steps before
    obtain ⟨refined, cost, performed, after, _⟩ :=
      refineOnce_eligible options primaryFormed secondaryFormed before
    exact ⟨refined, cost, performed, after⟩
  obtain ⟨refined, succeeded, after⟩ := refine_ok keeps limit path
  exact ⟨made, _, refined, rfl, refines, succeeded, after⟩

end Run

/-- Aligning two checked graphs over exact rationals makes rounds numbered from one on, no more than the
limit admits, and some unless it admits none or both have a single block. When the last one is stable a
higher limit changes nothing, and when it comes to the alignment it started from, aligning anew under the
costs adjusted to the result gives the result again. -/
theorem compute_rounds (options : Options Rat) (primary secondary : FlowGraph)
    (primaryChecked : primary.check = .ok ()) (secondaryChecked : secondary.check = .ok ())
    (primarySmall : primary.size ≤ options.maxBlocks)
    (secondarySmall : secondary.size ≤ options.maxBlocks) :
    ∃ matcher costs base total, (process options primary secondary).outcome = .ok matcher ∧
      matcher.costs = some costs ∧
      globalAlignment costs.base options.gapCost = .ok (base, total) ∧
      ∀ limit : Int, ∃ made alignment,
        RoundsOf options costs primary secondary base limit made ∧
        (compute (matcher.upTo limit)).iterations = made.length ∧
        (compute (matcher.upTo limit)).result = .ok alignment ∧
        conclude matcher matcher.measure (endOf base made) = .ok alignment ∧
        ∀ round, made.getLast? = some round →
          (round.isStable = true → ∀ more, limit ≤ more →
            compute (matcher.upTo more) = compute (matcher.upTo limit)) ∧
          (round.refined = round.start → ∃ adjusted,
            refinedCosts options costs primary secondary
              (partnersOf primary.size (endOf base made)) = .ok adjusted ∧
            globalAlignment adjusted options.gapCost = .ok (endOf base made, round.cost)) := by
  have primaryFormed := FlowGraph.check_wellFormed primaryChecked
  have secondaryFormed := FlowGraph.check_wellFormed secondaryChecked
  have full : isDegraded options primary secondary = false := by
    simp only [isDegraded, decide_eq_false_iff_not]
    omega
  obtain ⟨matcher, processed, ready⟩ := process_ready options secondary primaryFormed.nonempty
  obtain ⟨base, based, trail⟩ := globalAlignment_base_trail options primary secondary
  have costs : matcher.costs = some (costsOf options primary secondary) := by
    simp [ready.costs_eq, full]
  refine ⟨matcher, _, base, _, processed, costs, based, ?_⟩
  intro limit
  by_cases several : 1 < primary.size ∨ 1 < secondary.size
  · -- the rounds are read off one run of the loop, and so is whatever a higher limit would do
    obtain ⟨made, refinement, refined, isRefinement, refines, succeeded, path⟩ :=
      exists_rounds primaryFormed secondaryFormed limit.toNat trail.path
    have computed := compute_refined ready full based several limit isRefinement succeeded path
    have reached := refines.result_eq succeeded
    refine ⟨made, _, roundsOf_refines several refines succeeded, ?_, by rw [computed], ?_, ?_⟩
    · rw [computed, refines.iterations_eq, Nat.zero_add]
    · rw [← reached]
      exact conclude_eq ready ready.sound path
    · intro round last
      constructor
      · intro stable more higher
        have isStable := refines.stable_iff.mpr ⟨round, last, stable⟩
        have again := refines.lasting isStable more.toNat (by omega)
        rw [computed, compute_refined ready full based several more again succeeded path]
        simp [refinementNotes, succeeded, isStable]
      · intro same
        obtain ⟨adjusted, isAdjusted, aligned⟩ :=
          refineOnce_parts (refines.performed round (List.mem_of_getLast? last))
        have ends : endOf base made = round.refined := by rw [endOf, last]; rfl
        rw [ends]
        exact ⟨adjusted, same ▸ isAdjusted, aligned⟩
  · have computed := compute_single ready full based several limit trail.path
    have concluded := conclude_eq ready ready.sound trail.path
    refine ⟨[], _, roundsOf_single primaryFormed secondaryFormed several _ base limit, ?_, ?_,
      concluded, by simp⟩
    · rw [computed]
      rfl
    · rw [computed]

theorem compute_rounds_loop :
    loopGraph.check = .ok () ∧ returnGraph.check = .ok () ∧
    ∃ matcher costs base total,
      (process (Options.standard : Options Rat) loopGraph returnGraph).outcome = .ok matcher ∧
      matcher.costs = some costs ∧
      globalAlignment costs.base (Options.standard : Options Rat).gapCost = .ok (base, total) ∧
      ∀ limit : Int, ∃ made alignment,
        RoundsOf Options.standard costs loopGraph returnGraph base limit made ∧
        (compute (matcher.upTo limit)).iterations = made.length ∧
        (compute (matcher.upTo limit)).result = .ok alignment ∧
        conclude matcher matcher.measure (endOf base made) = .ok alignment ∧
        ∀ round, made.getLast? = some round →
          (round.isStable = true → ∀ more, limit ≤ more →
            compute (matcher.upTo more) = compute (matcher.upTo limit)) ∧
          (round.refined = round.start → ∃ adjusted,
            refinedCosts Options.standard costs loopGraph returnGraph
              (partnersOf loopGraph.size (endOf base made)) = .ok adjusted ∧
            globalAlignment adjusted (Options.standard : Options Rat).gapCost =
              .ok (endOf base made, round.cost)) := by
  have loopChecked : loopGraph.check = .ok () := by rfl
  have returnChecked : returnGraph.check = .ok () := by rfl
  exact ⟨loopChecked, returnChecked, compute_rounds Options.standard loopGraph returnGraph
    loopChecked returnChecked (by decide) (by decide)⟩

end FlowAlign.Align
