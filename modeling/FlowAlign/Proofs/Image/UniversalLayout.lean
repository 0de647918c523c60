import FlowAlign.Proofs.Image.Bytes
import FlowAlign.Proofs.Image.Universal
import FlowAlign.Proofs.Outcome

/-!
Universal files as they are written, in either width. The header says how many slices there are and
where in the file each of them stands; their contents may stand anywhere, in any order and with anything
between them. Reading gives back the slices that were written, in order.
-/

namespace FlowAlign

namespace Bytes

/-- Bytes of a number, the most significant one first. -/
def bigOfNumber (width value : Nat) : Bytes :=
  (ofNumber width value).reverse

theorem length_bigOfNumber (width value : Nat) : (bigOfNumber width value).length = width := by
  rw [bigOfNumber, List.length_reverse, length_ofNumber]

theorem number_bigOfNumber {width value : Nat} (fits : value < 256 ^ width) :
    number .big (bigOfNumber width value) = value := by
  rw [number, bigOfNumber, List.reverse_reverse, littleNumber_ofNumber fits]

/-- A number is read from the place where its bytes stand. -/
theorem field?_bigOfNumber {data before : Bytes} {width value offset : Nat}
    (stands : before ++ bigOfNumber width value <+: data) (place : before.length = offset)
    (fits : value < 256 ^ width) : data.field? .big width offset = some value := by
  obtain ⟨after, rfl⟩ := stands
  have long := length_bigOfNumber width value
  have inside : offset + width ≤ (before ++ bigOfNumber width value ++ after).length := by
    rw [List.length_append, List.length_append, place, long]
    exact Nat.le_add_right _ _
  rw [field?_of_le .big inside, List.append_assoc, List.drop_left' place, List.take_left' long,
    number_bigOfNumber fits]

end Bytes

namespace Universal

/-- A slice with the place of its content in the file, and the numbers of its entry that nothing
depends on. -/
structure Entry where
  slice : Slice
  start : Nat
  subtype : Nat
  alignment : Nat
  reserved : Nat

section Layout

variable (wide : Bool)

def wordOf : Nat :=
  if wide then 8 else 4

def entrySize : Nat :=
  if wide then 32 else 20

def markOf : Bytes :=
  if wide then Magic.wideFat else Magic.fat

/-- What stands behind the size of a slice. -/
def Entry.rest (entry : Entry) : Bytes :=
  Bytes.bigOfNumber 4 entry.alignment ++ if wide then Bytes.bigOfNumber 4 entry.reserved else []

def Entry.bytes (entry : Entry) : Bytes :=
  Bytes.bigOfNumber 4 entry.slice.cpuType ++ Bytes.bigOfNumber 4 entry.subtype ++
    Bytes.bigOfNumber (wordOf wide) entry.start ++
    Bytes.bigOfNumber (wordOf wide) entry.slice.content.length ++ entry.rest wide

def header (entries : List Entry) : Bytes :=
  markOf wide ++ Bytes.bigOfNumber 4 entries.length ++ entries.flatMap (Entry.bytes wide)

/-- Numbers of an entry that can be written in it. -/
structure Entry.Fits (entry : Entry) : Prop where
  cpuType : entry.slice.cpuType < 256 ^ 4
  start : entry.start < 256 ^ wordOf wide
  size : entry.slice.content.length < 256 ^ wordOf wide

/-- A file that starts with the header for some slices, with their contents where it says. -/
structure Stored (entries : List Entry) (data : Bytes) : Prop where
  header : header wide entries <+: data
  fits : ∀ entry ∈ entries, entry.Fits wide
  placed : ∀ entry ∈ entries, entry.slice.content <+: data.drop entry.start

end Layout

section Reading

variable {wide : Bool} {entries : List Entry} {entry : Entry} {data before : Bytes}

theorem length_markOf (wide : Bool) : (markOf wide).length = 4 := by
  cases wide with
  | false => rfl
  | true => rfl

theorem layout_of_mark (marked : markOf wide <+: data) : layout data =
    { word := wordOf wide, entry := entrySize wide } := by
  obtain ⟨rest, rfl⟩ := marked
  cases wide with
  | false => rfl
  | true => rfl

/-- The mark is none of those that are looked for before it. -/
theorem startsWith_of_mark (marked : markOf wide <+: data) :
    data.startsWith Magic.elf = false ∧
    (Magic.littleMacho ++ Magic.bigMacho).any data.startsWith = false ∧
    (data.startsWith Magic.fat || data.startsWith Magic.wideFat) = true := by
  obtain ⟨rest, rfl⟩ := marked
  cases wide with
  | false => exact ⟨rfl, rfl, rfl⟩
  | true => exact ⟨rfl, rfl, rfl⟩

theorem length_entryBytes (wide : Bool) (entry : Entry) :
    (entry.bytes wide).length = entrySize wide := by
  cases wide with
  | false => simp [Entry.bytes, Entry.rest, wordOf, entrySize, Bytes.length_bigOfNumber]
  | true => simp [Entry.bytes, Entry.rest, wordOf, entrySize, Bytes.length_bigOfNumber]

/-- The numbers of an entry stand one after another. -/
theorem Entry.numbers (stands : before ++ entry.bytes wide <+: data) (fits : entry.Fits wide) :
    data.field? .big 4 before.length = some entry.slice.cpuType ∧
    data.field? .big (wordOf wide) (before.length + 8) = some entry.start ∧
    data.field? .big (wordOf wide) (before.length + 8 + wordOf wide) =
      some entry.slice.content.length := by
  let type := before ++ Bytes.bigOfNumber 4 entry.slice.cpuType
  let start := type ++ Bytes.bigOfNumber 4 entry.subtype ++ Bytes.bigOfNumber (wordOf wide) entry.start
  let size := start ++ Bytes.bigOfNumber (wordOf wide) entry.slice.content.length
  have whole : size <+: before ++ entry.bytes wide := by
    refine ⟨entry.rest wide, ?_⟩
    simp only [size, start, type, Entry.bytes, List.append_assoc]
  have isSize : size <+: data := whole.trans stands
  have isStart : start <+: data := (List.prefix_append _ _).trans isSize
  have isType : type <+: data := by
    refine List.IsPrefix.trans ?_ isStart
    simp only [start, List.append_assoc]
    exact List.prefix_append _ _
  refine ⟨Bytes.field?_bigOfNumber isType rfl fits.cpuType,
    Bytes.field?_bigOfNumber isStart ?_ fits.start, Bytes.field?_bigOfNumber isSize ?_ fits.size⟩
  · simp only [type, List.length_append, Bytes.length_bigOfNumber]
  · simp only [start, type, List.length_append, Bytes.length_bigOfNumber]

/-- An entry is read as the slice that it was written for. -/
theorem sliceAt_entry (stands : before ++ entry.bytes wide <+: data) (fits : entry.Fits wide)
    (placed : entry.slice.content <+: data.drop entry.start) :
    sliceAt data { word := wordOf wide, entry := entrySize wide } before.length =
      .ok entry.slice := by
  obtain ⟨type, start, size⟩ := Entry.numbers stands fits
  have enough : ¬ data.length < before.length + entrySize wide := by
    have inside := stands.length_le
    rw [List.length_append, length_entryBytes] at inside
    omega
  have content : (data.drop entry.start).take entry.slice.content.length = entry.slice.content :=
    (List.prefix_iff_eq_take.mp placed).symm
  simp only [sliceAt, enough, if_false, Bytes.field, type, start, size, Outcome.ok_bind, content]
  rfl

/-- Entries in a row are read one after another. -/
theorem slicesFrom_entries : ∀ {entries : List Entry} {before : Bytes},
    before ++ entries.flatMap (Entry.bytes wide) <+: data → (∀ entry ∈ entries, entry.Fits wide) →
    (∀ entry ∈ entries, entry.slice.content <+: data.drop entry.start) →
    slicesFrom data { word := wordOf wide, entry := entrySize wide } entries.length before.length =
      entries.map fun entry => .ok entry.slice := by
  intro entries
  induction entries with
  | nil => exact fun _ _ _ => rfl
  | cons entry rest ih =>
      intro before stand fits placed
      rw [List.flatMap_cons, ← List.append_assoc] at stand
      have first : before ++ entry.bytes wide <+: data := (List.prefix_append _ _).trans stand
      have later := ih stand (fun other member => fits other (List.mem_cons_of_mem _ member))
        fun other member => placed other (List.mem_cons_of_mem _ member)
      rw [List.length_append, length_entryBytes] at later
      rw [List.length_cons, slicesFrom, List.map_cons,
        sliceAt_entry first (fits entry List.mem_cons_self) (placed entry List.mem_cons_self)]
      exact congrArg _ later

namespace Stored

variable (stored : Stored wide entries data)

include stored

theorem counted : markOf wide ++ Bytes.bigOfNumber 4 entries.length <+: data :=
  (List.prefix_append _ _).trans stored.header

theorem marked : markOf wide <+: data :=
  (List.prefix_append _ _).trans stored.counted

variable (few : entries.length < 45)

include few

theorem count : data.field? .big 4 4 = some entries.length :=
  Bytes.field?_bigOfNumber stored.counted (length_markOf wide) (few.trans (by decide))

/-- A written file is known as a universal one by its mark and the number of its slices. -/
theorem kind : FileKind.ofBytes data = .fatMacho := by
  obtain ⟨notElf, notMacho, fat⟩ := startsWith_of_mark stored.marked
  have universal : FileKind.isUniversal data = true := by
    rw [FileKind.isUniversal, fat, stored.count few, Option.any_some, Bool.true_and]
    exact decide_eq_true few
  simp only [FileKind.ofBytes, notElf, notMacho, universal, Bool.false_eq_true, if_false, if_true]

/-- The slices of a written file are those that it was written with. -/
theorem slices : Universal.slices data = entries.map fun entry => .ok entry.slice := by
  have front : (markOf wide ++ Bytes.bigOfNumber 4 entries.length).length = 8 := by
    rw [List.length_append, length_markOf, Bytes.length_bigOfNumber]
  have found := slicesFrom_entries stored.header stored.fits stored.placed
  rw [front] at found
  simp only [Universal.slices, Bytes.field, stored.count few, layout_of_mark stored.marked]
  exact found

end Stored

end Reading

end Universal

end FlowAlign
