import FlowAlign.Proofs.Image.UniversalLayout
import FlowAlign.Proofs.Load.Native

/-!
Functions of universal files. Of the slices that a universal file was written with, the first one for a
format is read in place of the file, one level further inside; a file without such a slice is refused.
-/

namespace FlowAlign

namespace Universal

section Picking

variable {format : Format} {entries : List Entry}

/-- A slice for a format that has none before it. -/
structure First (format : Format) (entries : List Entry) (entry : Entry) : Prop where
  wanted : Architecture.ofMacho? entry.slice.cpuType = some format
  place : ∃ before after, entries = before ++ entry :: after ∧
    ∀ other ∈ before, Architecture.ofMacho? other.slice.cpuType ≠ some format

theorem First.picked {entry : Entry} (first : First format entries entry) :
    pick format (entries.map fun entry => .ok entry.slice) = .ok (some entry.slice) := by
  obtain ⟨before, after, rfl, others⟩ := first.place
  induction before with
  | nil => rw [List.nil_append, List.map_cons, pick, if_pos first.wanted]
  | cons other rest ih =>
      rw [List.cons_append, List.map_cons, pick, if_neg (others other List.mem_cons_self)]
      have others' := fun later member => others later (List.mem_cons_of_mem _ member)
      exact ih others' ⟨first.wanted, rest, after, rfl, others'⟩

theorem pick_of_absent
    (absent : ∀ entry ∈ entries, Architecture.ofMacho? entry.slice.cpuType ≠ some format) :
    pick format (entries.map fun entry => .ok entry.slice) = .ok none := by
  induction entries with
  | nil => rfl
  | cons entry rest ih =>
      rw [List.map_cons, pick, if_neg (absent entry List.mem_cons_self)]
      exact ih fun other member => absent other (List.mem_cons_of_mem _ member)

end Picking

end Universal

namespace Load

open Universal (inner? maxNesting unwrapFrom)

/-- Functions of an object file inside of at most so many nested universal files. -/
def objectFunctionsWithin (levels : Nat) (data : Bytes) (format : Format) (description : String) :
    Reading (List FunctionSlice) := do
  let inner ← unwrapFrom format description levels data
  let kind := FileKind.ofBytes inner
  checkArchitecture inner kind format description
  match ← Toolkit.nextImage with
  | none => throw (.input none (.corrupt description))
  | some image => imageFunctions image kind inner format

/-- Reading a file is reading another one that is nested in it, one level further inside. It is the same
as reading that file by itself, unless the limit of levels is reached. -/
structure Forwards (format : Format) (description : String) (data inner : Bytes) : Prop where
  level : ∀ levels, objectFunctionsWithin (levels + 1) data format description =
    objectFunctionsWithin levels inner format description
  whole : Walk.after (inner? format) inner (maxNesting - 1) = none →
    objectFunctions data format description = objectFunctions inner format description
  tooDeep : Walk.after (inner? format) inner (maxNesting - 1) ≠ none →
    objectFunctions data format description = throw (.data .tooDeep)

section Within

variable {format : Format} {description : String} {data inner : Bytes}

theorem objectFunctions_eq_within (data : Bytes) (format : Format) (description : String) :
    objectFunctions data format description =
      objectFunctionsWithin maxNesting data format description :=
  rfl

theorem objectFunctionsWithin_congr {levels levels' : Nat}
    (same : unwrapFrom format description levels data = unwrapFrom format description levels' inner) :
    objectFunctionsWithin levels data format description =
      objectFunctionsWithin levels' inner format description := by
  rw [objectFunctionsWithin, same, objectFunctionsWithin]

theorem objectFunctionsWithin_of_fault {levels : Nat} {fault : Fault}
    (failed : unwrapFrom format description levels data = .error fault) :
    objectFunctionsWithin levels data format description = throw fault := by
  rw [objectFunctionsWithin, failed]
  rfl

theorem forwards_of_inner (inside : inner? format data = some inner) :
    Forwards format description data inner := by
  have reached : Walk.after (inner? format) data 1 = some inner := inside
  have level : ∀ levels, objectFunctionsWithin (levels + 1) data format description =
      objectFunctionsWithin levels inner format description := by
    intro levels
    refine objectFunctionsWithin_congr ?_
    rw [Nat.add_comm]
    exact Universal.unwrapFrom_after description reached levels
  have entered : objectFunctions data format description =
      objectFunctionsWithin (maxNesting - 1) inner format description := level (maxNesting - 1)
  refine ⟨level, ?_, ?_⟩
  · intro ended
    rw [entered, objectFunctions_eq_within]
    exact objectFunctionsWithin_congr
      (Universal.unwrapFrom_of_le description ended (Nat.sub_le _ _)).symm
  · intro deep
    rw [entered]
    exact objectFunctionsWithin_of_fault (Universal.unwrapFrom_tooDeep description deep)

theorem objectFunctions_of_absent (universal : FileKind.ofBytes data = .fatMacho)
    (absent : Universal.pick format (Universal.slices data) = .ok none) :
    objectFunctions data format description =
      throw (.mismatch none (.notInUniversal format description)) := by
  rw [objectFunctions_eq_within]
  refine objectFunctionsWithin_of_fault ?_
  rw [show maxNesting = maxNesting - 1 + 1 from rfl, unwrapFrom, if_pos universal, absent]

end Within

section Written

variable {wide : Bool} {entries : List Universal.Entry} {data : Bytes}

/-- A universal file that was written with fewer than 45 slices is known as one and has the slices it was
written with. Its functions of a format are those of the first slice for the format, and if there is no
such slice it is refused. -/
theorem objectFunctions_slices (few : entries.length < 45)
    (stored : Universal.Stored wide entries data) :
    FileKind.ofBytes data = .fatMacho ∧
    Universal.slices data = entries.map (fun entry => .ok entry.slice) ∧
    ∀ format description,
      (∀ entry, Universal.First format entries entry →
        Forwards format description data entry.slice.content) ∧
      ((∀ entry ∈ entries, Architecture.ofMacho? entry.slice.cpuType ≠ some format) →
        objectFunctions data format description =
          throw (.mismatch none (.notInUniversal format description))) := by
  have universal := stored.kind few
  have slices := stored.slices few
  refine ⟨universal, slices, ?_⟩
  intro format description
  constructor
  · intro entry first
    have picked := first.picked
    rw [← slices] at picked
    exact forwards_of_inner (Universal.inner?_eq_some.mpr ⟨universal, _, picked, rfl⟩)
  · intro absent
    have picked := Universal.pick_of_absent absent
    rw [← slices] at picked
    exact objectFunctions_of_absent universal picked

/-- Slices that are not stored in their order, one of them without content. -/
def shuffledEntries (wide : Bool) : List Universal.Entry :=
  let front := 8 + 3 * Universal.entrySize wide
  [{ slice := { cpuType := 0xc, content := [1, 2, 3] }, start := front + 4, subtype := 9,
     alignment := 2, reserved := 0 },
   { slice := { cpuType := 0x7, content := [] }, start := front + 2, subtype := 3, alignment := 0,
     reserved := 0 },
   { slice := { cpuType := 0x7, content := [4, 5] }, start := front + 1, subtype := 3,
     alignment := 0, reserved := 0 }]

def shuffledFile (wide : Bool) : Bytes :=
  Universal.header wide (shuffledEntries wide) ++ [0, 4, 5, 0, 1, 2, 3]

theorem shuffledFile_stored (wide : Bool) :
    Universal.Stored wide (shuffledEntries wide) (shuffledFile wide) := by
  refine ⟨List.prefix_append _ _, ?_, ?_⟩
  · have fits : ∀ entry ∈ shuffledEntries wide, entry.slice.cpuType < 256 ^ 4 ∧
        entry.start < 256 ^ Universal.wordOf wide ∧
        entry.slice.content.length < 256 ^ Universal.wordOf wide := by
      cases wide with
      | false => decide
      | true => decide
    exact fun entry member => ⟨(fits entry member).1, (fits entry member).2.1, (fits entry member).2.2⟩
  · cases wide with
    | false => decide
    | true => decide

theorem shuffledEntries_first (wide : Bool) : ∃ entry, entry.slice.content = [] ∧
    Universal.First .x86 (shuffledEntries wide) entry := by
  refine ⟨_, rfl, rfl, [_], [_], rfl, ?_⟩
  cases wide with
  | false => decide
  | true => decide

theorem objectFunctions_slices_shuffled :
    Universal.Stored true (shuffledEntries true) (shuffledFile true) ∧
    Universal.Stored false (shuffledEntries false) (shuffledFile false) ∧
    FileKind.ofBytes (shuffledFile true) = .fatMacho ∧
    Universal.slices (shuffledFile true) =
      [.ok { cpuType := 0xc, content := [1, 2, 3] }, .ok { cpuType := 0x7, content := [] },
        .ok { cpuType := 0x7, content := [4, 5] }] ∧
    Forwards .x86 "the file" (shuffledFile true) [] ∧
    objectFunctions (shuffledFile false) .x64 "the file" =
      throw (.mismatch none (.notInUniversal .x64 "the file")) := by
  have large := objectFunctions_slices (by decide) (shuffledFile_stored true)
  have small := objectFunctions_slices (by decide) (shuffledFile_stored false)
  obtain ⟨entry, empty, first⟩ := shuffledEntries_first true
  have forwards := (large.2.2 .x86 "the file").1 entry first
  rw [empty] at forwards
  exact ⟨shuffledFile_stored true, shuffledFile_stored false, large.1, large.2.1, forwards,
    (small.2.2 .x64 "the file").2 (by decide)⟩

end Written

end Load

end FlowAlign
