import FlowAlign.Image.Extent
import FlowAlign.Proofs.Compare.Pairing
import FlowAlign.Proofs.Position

/-!
Extents of symbols without a size partition their section. Symbols at one address share an extent, the
extents of different addresses do not overlap, and put together in order they are what the section holds
from the first symbol on, also when symbols stand behind its end.
-/

namespace FlowAlign.Extent

/-- What symbols are ordered by. -/
def Mark.key (mark : Mark) : Int ×ₗ List Nat ×ₗ Bool :=
  toLex (mark.address, toLex (Text.points mark.name, mark.thumb))

/-- The addresses of symbols, each once and in rising order. -/
def addresses (marks : List Mark) : List Int :=
  (marks.map Mark.address).toFinset.sort (· ≤ ·)

/-- The bytes of the symbols at an address: those up to the next one, or up to the end. -/
def extent (marks : List Mark) (start : Int) (content : Bytes) (address : Int) : Bytes :=
  Position.slice content (address - start)
    ((nextAddress? marks address).getD (start + content.length) - start)

/-- Symbols with their bytes as a partition of the section: all of them in order, with bytes that depend
on their address only, stand there, end before the next address and leave no gap. Names that spell no
code points cannot be told apart by them, and have no order. -/
structure Partitions (marks : List Mark) (start : Int) (content : Bytes) (ranges : List Range)
    (extent : Int → Bytes) : Prop where
  complete : (ranges.map Range.mark).Perm marks
  sorted : (∀ mark ∈ marks, Text.Spelled mark.name) →
    ranges.Pairwise fun first second => first.mark.key ≤ second.mark.key
  shared : ∀ range ∈ ranges, range.content = extent range.mark.address
  placed : ∀ mark ∈ marks, extent mark.address <+: content.drop (mark.address - start).toNat
  apart : ∀ first ∈ marks, ∀ second ∈ marks, first.address < second.address →
    first.address + (extent first.address).length ≤ second.address
  whole : ∀ first ∈ (addresses marks).head?,
    (addresses marks).flatMap extent = content.drop (first - start).toNat

section Order

theorem le_iff {first second : Mark} (spelled : Text.Spelled first.name)
    (spelled' : Text.Spelled second.name) : le first second = true ↔ first.key ≤ second.key := by
  have names : first.name = second.name ↔ Text.points first.name = Text.points second.name :=
    ⟨fun same => congrArg Text.points same, Text.points_inj spelled spelled'⟩
  rw [le, Mark.key, Mark.key, Prod.Lex.toLex_le_toLex, Prod.Lex.toLex_le_toLex]
  by_cases sameAddress : first.address = second.address
  · by_cases sameName : first.name = second.name
    · simp [sameAddress, sameName, Bool.le_iff_imp, Bool.or_eq_true, or_iff_not_imp_left]
    · have differ := names.not.mp sameName
      simp [sameAddress, sameName, differ, Text.le_iff, lt_iff_le_and_ne]
  · simp [sameAddress, lt_iff_le_and_ne]

theorem mergeSort_le_sorted {marks : List Mark} (spelled : ∀ mark ∈ marks, Text.Spelled mark.name) :
    (marks.mergeSort le).Pairwise fun first second => first.key ≤ second.key := by
  have keys : (marks.mergeSort le).map Mark.key =
      (marks.map Mark.key).mergeSort fun first second => decide (first ≤ second) := by
    refine List.map_mergeSort ?_
    intro first isFirst second isSecond
    rw [Bool.eq_iff_iff, decide_eq_true_eq]
    exact le_iff (spelled first isFirst) (spelled second isSecond)
  have sorted := List.pairwise_mergeSort' (· ≤ ·) (marks.map Mark.key)
  rwa [← keys, List.pairwise_map] at sorted

end Order

section Bytes

variable {marks : List Mark} {start address next : Int}

theorem mem_addresses : address ∈ addresses marks ↔ address ∈ marks.map Mark.address := by
  rw [addresses, Finset.mem_sort, List.mem_toFinset]

theorem addresses_rising (marks : List Mark) : (addresses marks).Pairwise (· < ·) :=
  (Finset.sortedLT_sort _).pairwise

theorem nextAddress?_eq_some : nextAddress? marks address = some next ↔
    next ∈ addresses marks ∧ address < next ∧
      ∀ other ∈ addresses marks, address < other → next ≤ other := by
  simp only [nextAddress?, List.min?_eq_some_iff, List.mem_filter, decide_eq_true_eq, mem_addresses,
    and_imp, and_assoc]

theorem nextAddress?_eq_none : nextAddress? marks address = none ↔
    ∀ other ∈ addresses marks, other ≤ address := by
  simp only [nextAddress?, List.min?_eq_none_iff, List.filter_eq_nil_iff, decide_eq_true_eq, not_lt,
    mem_addresses]

variable (content : Bytes)

theorem extent_last (last : nextAddress? marks address = none) (above : start ≤ address) :
    extent marks start content address = content.drop (address - start).toNat := by
  obtain ⟨offset, rfl⟩ := Int.le.dest above
  simp only [extent, last, Option.getD_none, add_sub_cancel_left, Int.toNat_natCast,
    Position.slice_of_nat, List.take_length]

theorem extent_append (follows : nextAddress? marks address = some next) (above : start ≤ address) :
    extent marks start content address ++ content.drop (next - start).toNat =
      content.drop (address - start).toNat := by
  have forward := (nextAddress?_eq_some.mp follows).2.1
  obtain ⟨offset, rfl⟩ := Int.le.dest above
  obtain ⟨offset', rfl⟩ := Int.le.dest (Int.le_of_lt (Int.lt_of_le_of_lt above forward))
  simp only [extent, follows, Option.getD_some, add_sub_cancel_left, Int.toNat_natCast]
  exact Position.slice_append_drop content (by omega)

theorem extent_prefix (above : start ≤ address) :
    extent marks start content address <+: content.drop (address - start).toNat := by
  cases follows : nextAddress? marks address with
  | none => rw [extent_last content follows above]
  | some next => exact ⟨_, extent_append content follows above⟩

theorem length_extent (follows : nextAddress? marks address = some next) (above : start ≤ address) :
    address + (extent marks start content address).length ≤ next := by
  have forward := (nextAddress?_eq_some.mp follows).2.1
  rw [extent, follows, Option.getD_some, Position.slice_length]
  simp only [Position.bound]
  split <;> split <;> omega

theorem extent_apart {other : Int} (member : other ∈ addresses marks) (below : address < other)
    (above : start ≤ address) :
    address + (extent marks start content address).length ≤ other := by
  cases follows : nextAddress? marks address with
  | none => exact absurd (nextAddress?_eq_none.mp follows other member) (not_le.mpr below)
  | some next =>
      exact (length_extent content follows above).trans
        ((nextAddress?_eq_some.mp follows).2.2 other member below)

/-- From an address on, the extents put together are what the section holds from there on. -/
theorem flatMap_extent : ∀ {rest : List Int} {address : Int},
    (address :: rest).Pairwise (· < ·) →
    (∀ other, other ∈ rest ↔ other ∈ addresses marks ∧ address < other) → start ≤ address →
    (address :: rest).flatMap (extent marks start content) =
      content.drop (address - start).toNat := by
  intro rest
  induction rest with
  | nil =>
      intro address _ later above
      have last : nextAddress? marks address = none := by
        rw [nextAddress?_eq_none]
        intro other member
        by_contra below
        exact List.not_mem_nil ((later other).mpr ⟨member, not_le.mp below⟩)
      rw [List.flatMap_singleton, extent_last content last above]
  | cons next rest ih =>
      intro address rising later above
      obtain ⟨below, rising⟩ := List.pairwise_cons.mp rising
      have below' := (List.pairwise_cons.mp rising).1
      -- the list holds all addresses behind, so its next one is the next address
      have follows : nextAddress? marks address = some next := by
        have isNext := (later next).mp List.mem_cons_self
        refine nextAddress?_eq_some.mpr ⟨isNext.1, isNext.2, ?_⟩
        intro other member behind
        rcases List.mem_cons.mp ((later other).mpr ⟨member, behind⟩) with rfl | isLater
        · exact le_refl _
        · exact le_of_lt (below' other isLater)
      have onward : ∀ other, other ∈ rest ↔ other ∈ addresses marks ∧ next < other := by
        intro other
        constructor
        · intro isLater
          exact ⟨((later other).mp (List.mem_cons_of_mem _ isLater)).1, below' other isLater⟩
        · rintro ⟨member, behind⟩
          have isLater := (later other).mpr ⟨member, (below next List.mem_cons_self).trans behind⟩
          exact (List.mem_cons.mp isLater).resolve_left (ne_of_gt behind)
      have before := below next List.mem_cons_self
      rw [List.flatMap_cons, ih rising onward (above.trans (le_of_lt before)),
        extent_append content follows above]

theorem flatMap_addresses (above : ∀ mark ∈ marks, start ≤ mark.address)
    (first : address ∈ (addresses marks).head?) :
    (addresses marks).flatMap (extent marks start content) =
      content.drop (address - start).toNat := by
  obtain ⟨rest, isAll⟩ := List.head?_eq_some_iff.mp first
  have rising := addresses_rising marks
  have inside : start ≤ address := by
    have member : address ∈ addresses marks := List.mem_of_mem_head? first
    obtain ⟨mark, isMark, rfl⟩ := List.mem_map.mp (mem_addresses.mp member)
    exact above mark isMark
  rw [isAll] at rising
  rw [isAll]
  refine flatMap_extent content rising ?_ inside
  intro other
  have below := (List.pairwise_cons.mp rising).1
  rw [isAll, List.mem_cons]
  constructor
  · exact fun isLater => ⟨Or.inr isLater, below other isLater⟩
  · rintro ⟨rfl | isLater, behind⟩
    · exact absurd behind (lt_irrefl _)
    · exact isLater

end Bytes

/-- Symbols that do not stand before their section partition it from the first of them on. -/
theorem sizedByNext_partitions (marks : List Mark) (start : Int) (content : Bytes)
    (above : ∀ mark ∈ marks, start ≤ mark.address) :
    Partitions marks start content (sizedByNext marks start content)
      (extent marks start content) := by
  have found : sizedByNext marks start content = (marks.mergeSort le).map fun mark =>
      { mark := mark, content := extent marks start content mark.address } := rfl
  refine ⟨?_, ?_, ?_, ?_, ?_, ?_⟩
  · rw [found, List.map_map]
    exact (List.map_id _).symm ▸ List.mergeSort_perm marks le
  · intro spelled
    rw [found, List.pairwise_map]
    exact mergeSort_le_sorted spelled
  · intro range member
    rw [found] at member
    obtain ⟨mark, _, rfl⟩ := List.mem_map.mp member
    rfl
  · exact fun mark member => extent_prefix content (above mark member)
  · intro first isFirst second isSecond below
    have member := mem_addresses.mpr (List.mem_map_of_mem isSecond)
    exact extent_apart content member below (above first isFirst)
  · exact fun first isFirst => flatMap_addresses content above isFirst

/-- Two names for one address, and a symbol behind the end of the section. -/
def aliasedMarks : List Mark :=
  [{ address := 20, name := "end", thumb := false }, { address := 12, name := "g", thumb := true },
    { address := 11, name := "f", thumb := false }, { address := 12, name := "g", thumb := false }]

theorem aliasedMarks_spelled : ∀ mark ∈ aliasedMarks, Text.Spelled mark.name := by
  have letters : Text.Spelled "end" ∧ Text.Spelled "f" ∧ Text.Spelled "g" :=
    ⟨⟨[101, 110, 100], by decide, by decide⟩, ⟨[102], by decide, by decide⟩,
      ⟨[103], by decide, by decide⟩⟩
  simp only [aliasedMarks, List.forall_mem_cons]
  exact ⟨letters.1, letters.2.2, letters.2.1, letters.2.2, List.forall_mem_nil _⟩

theorem sizedByNext_partitions_aliased :
    (∀ mark ∈ aliasedMarks, Text.Spelled mark.name) ∧ (∀ mark ∈ aliasedMarks, 10 ≤ mark.address) ∧
      Partitions aliasedMarks 10 [1, 2, 3, 4] (sizedByNext aliasedMarks 10 [1, 2, 3, 4])
        (extent aliasedMarks 10 [1, 2, 3, 4]) := by
  have above : ∀ mark ∈ aliasedMarks, (10 : Int) ≤ mark.address := by decide
  exact ⟨aliasedMarks_spelled, above, sizedByNext_partitions aliasedMarks 10 [1, 2, 3, 4] above⟩

example : (sizedByNext aliasedMarks 10 [1, 2, 3, 4]).map Range.content = [[2], [3, 4], [3, 4], []] := by
  cbv

end FlowAlign.Extent
