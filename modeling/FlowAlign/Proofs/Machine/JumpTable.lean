import FlowAlign.Image.Basic
import FlowAlign.Machine.JumpTable
import FlowAlign.Proofs.Distinct
import FlowAlign.Proofs.Image.Bytes
import FlowAlign.Proofs.Position

/-!
Jump tables read back from memory: the targets of a table are the addresses that it was written with, and
they lie inside of the function whatever the table.
-/

namespace FlowAlign

/-- Whether the content of a segment covers some bytes of memory. -/
def Segment.Covers (segment : Segment) (address size : Int) : Prop :=
  segment.address ≤ address ∧ address + size ≤ segment.address + segment.content.length

instance (segment : Segment) (address size : Int) : Decidable (segment.Covers address size) :=
  inferInstanceAs (Decidable (_ ∧ _))

theorem Segment.covers_iff {segment : Segment} {address size : Int} :
    MemoryMap.holds segment address size = true ↔ segment.Covers address size := by
  rw [MemoryMap.holds, Covers, Bool.and_eq_true, decide_eq_true_eq, decide_eq_true_eq]
  omega

/-- Bytes are read from the first segment that covers them. -/
theorem MemoryMap.read_eq {memory : MemoryMap} {earlier later : List Segment} {segment : Segment}
    {before bytes after : Bytes} (segments : memory.segments = earlier ++ segment :: later)
    (content : segment.content = before ++ bytes ++ after)
    (hidden : ∀ other ∈ earlier, ¬ other.Covers (segment.address + before.length) bytes.length) :
    memory.read (segment.address + before.length) bytes.length = some bytes := by
  have covers : segment.Covers (segment.address + before.length) bytes.length := by
    rw [Segment.Covers, content]
    simp only [List.length_append]
    omega
  have found : memory.segments.find? (fun other =>
      holds other (segment.address + before.length) bytes.length) = some segment := by
    rw [segments, List.find?_append, List.find?_eq_none.mpr, List.find?_cons_of_pos]
    · rfl
    · exact Segment.covers_iff.mpr covers
    · exact fun other member found => hidden other member (Segment.covers_iff.mp found)
  have offset : segment.address + (before.length : Int) - segment.address = before.length := by omega
  simp only [read, found, Option.map_some, content, offset, Position.slice_append]

namespace Machine.JumpTable

variable {table : JumpTable} {memory : MemoryMap} {start stop target : Int} {listed : List Int}

/-- Number that a table holds for a target. -/
def valueOf (table : JumpTable) (target : Int) : Int :=
  if table.relative then target - table.address else target

def entryOf (table : JumpTable) (target : Int) : Bytes :=
  Bytes.ofInt table.entrySize (table.valueOf target)

/-- Whether the number for a target fits in an entry; offsets have a sign. -/
def Fits (table : JumpTable) (target : Int) : Prop :=
  if table.relative then
    -256 ^ table.entrySize ≤ 2 * table.valueOf target ∧
      2 * table.valueOf target < 256 ^ table.entrySize
  else 0 ≤ table.valueOf target ∧ table.valueOf target < 256 ^ table.entrySize

instance (table : JumpTable) (target : Int) : Decidable (table.Fits target) :=
  inferInstanceAs (Decidable (if table.relative = true then _ ∧ _ else _ ∧ _))

theorem targetOf_entryOf (fits : table.Fits target) : table.targetOf (table.entryOf target) = target := by
  rw [Fits] at fits
  cases relative : table.relative with
  | true =>
      rw [relative, if_pos rfl] at fits
      simp only [targetOf, entryOf, relative, if_true, Bytes.signed_ofInt fits.1 fits.2]
      simp [valueOf, relative]
  | false =>
      rw [relative, if_neg Bool.false_ne_true] at fits
      simp only [targetOf, entryOf, relative, Bytes.littleNumber_ofInt_of_fits fits.1 fits.2]
      simp [valueOf, relative]

def addressOf (table : JumpTable) (index : Nat) : Int :=
  table.address + index * table.entrySize

/-- Whether memory holds a table of targets in the content of one segment, no entry of it behind an
earlier segment. -/
structure StoredIn (table : JumpTable) (memory : MemoryMap) (listed : List Int)
    (earlier : List Segment) (segment : Segment) (before : Bytes) : Prop where
  segments : ∃ later, memory.segments = earlier ++ segment :: later
  content : ∃ after, segment.content = before ++ listed.flatMap table.entryOf ++ after
  address : table.address = segment.address + before.length
  fits : ∀ target ∈ listed, table.Fits target
  hidden : ∀ other ∈ earlier, ∀ index < listed.length,
    ¬ other.Covers (table.addressOf index) table.entrySize

def Stored (table : JumpTable) (memory : MemoryMap) (listed : List Int) : Prop :=
  ∃ earlier segment before, table.StoredIn memory listed earlier segment before

/-- Whether a table ends behind some entries: there is no next one, or one that leads out of a range. -/
def EndsAt (table : JumpTable) (memory : MemoryMap) (start stop : Int) (index : Nat) : Prop :=
  ∀ entry, memory.read (table.addressOf index) table.entrySize = some entry →
    ¬ (start ≤ table.targetOf entry ∧ table.targetOf entry < stop)

theorem length_flatMap_entryOf (listed : List Int) :
    (listed.flatMap table.entryOf).length = listed.length * table.entrySize := by
  induction listed with
  | nil => simp
  | cons target rest ih =>
      rw [List.flatMap_cons, List.length_append, ih, entryOf, Bytes.length_ofInt, List.length_cons,
        Nat.succ_mul, Nat.add_comm]

/-- Every entry of a stored table can be read. -/
theorem Stored.read (stored : table.Stored memory listed) {index : Nat}
    (position : listed[index]? = some target) :
    memory.read (table.addressOf index) table.entrySize = some (table.entryOf target) := by
  obtain ⟨earlier, segment, before, ⟨later, segments⟩, ⟨after, content⟩, address, _, hidden⟩ := stored
  obtain ⟨inside, isTarget⟩ := List.getElem?_eq_some_iff.mp position
  have parts : listed = listed.take index ++ target :: listed.drop (index + 1) := by
    rw [← isTarget, List.getElem_cons_drop, List.take_append_drop]
  have front : (before ++ (listed.take index).flatMap table.entryOf).length =
      before.length + index * table.entrySize := by
    rw [List.length_append, length_flatMap_entryOf, List.length_take, Nat.min_eq_left inside.le]
  have size : (table.entryOf target).length = table.entrySize := Bytes.length_ofInt _ _
  have place : segment.address + (before ++ (listed.take index).flatMap table.entryOf).length =
      table.addressOf index := by
    rw [front, addressOf, address]
    push_cast
    omega
  have content' : segment.content = (before ++ (listed.take index).flatMap table.entryOf) ++
      table.entryOf target ++ ((listed.drop (index + 1)).flatMap table.entryOf ++ after) := by
    rw [content]
    nth_rewrite 1 [parts]
    simp
  have found := MemoryMap.read_eq segments content' (by
    rw [place, size]
    exact fun other member => hidden other member index inside)
  rwa [place, size] at found

theorem mem_entries {fuel index : Nat} (member : target ∈ table.entries memory start stop fuel index) :
    start ≤ target ∧ target < stop := by
  induction fuel generalizing index with
  | zero => cases member
  | succ fuel ih =>
      rw [entries] at member
      split at member
      · cases member
      · simp only at member
        split at member
        · next inside =>
            rcases List.mem_cons.mp member with rfl | later
            · exact inside
            · exact ih later
        · cases member

/-- From an index on, the entries of a stored table are those listed from there on. -/
theorem Stored.entries (stored : table.Stored memory listed) (bounded : listed.length ≤ maxEntries)
    (inside : ∀ target ∈ listed, start ≤ target ∧ target < stop)
    (ends : listed.length < maxEntries → table.EndsAt memory start stop listed.length)
    {fuel index : Nat} (whole : fuel + index = maxEntries) (below : index ≤ listed.length) :
    table.entries memory start stop fuel index = listed.drop index := by
  induction fuel generalizing index with
  | zero => rw [JumpTable.entries, List.drop_eq_nil_of_le (by omega)]
  | succ fuel ih =>
      rw [JumpTable.entries]
      cases found : listed[index]? with
      | none =>
          have last : index = listed.length := by
            have := List.getElem?_eq_none_iff.mp found
            omega
          subst last
          rw [List.drop_length]
          split
          · rfl
          · next entry read =>
              simp only
              rw [if_neg (ends (by omega) entry read)]
      | some target =>
          obtain ⟨below, isTarget⟩ := List.getElem?_eq_some_iff.mp found
          have member : target ∈ listed := List.mem_of_getElem? found
          obtain ⟨_, _, _, within⟩ := stored
          have read := Stored.read ⟨_, _, _, within⟩ found
          rw [addressOf] at read
          simp only [read, targetOf_entryOf (within.fits target member)]
          rw [if_pos (inside target member), ih (by omega) below, ← isTarget,
            List.getElem_cons_drop]

theorem Stored.targets (stored : table.Stored memory listed) (bounded : listed.length ≤ maxEntries)
    (inside : ∀ target ∈ listed, start ≤ target ∧ target < stop)
    (ends : listed.length < maxEntries → table.EndsAt memory start stop listed.length) :
    table.targets memory start stop = listed.eraseDups := by
  rw [JumpTable.targets, stored.entries bounded inside ends (Nat.add_zero _) (Nat.zero_le _),
    List.drop_zero]

/-- The targets of a table are distinct addresses of the function, and those of a stored table are the
addresses it was written with, in the order of their first places. -/
theorem targets_listed (slice : FunctionSlice) (table : JumpTable) :
    let start := slice.address
    let stop := slice.address + slice.content.length
    let found := table.targets slice.memory start stop
    found.Nodup ∧ (∀ target ∈ found, start ≤ target ∧ target < stop) ∧
      ∀ listed : List Int, listed.length ≤ maxEntries →
        (∀ target ∈ listed, start ≤ target ∧ target < stop) → table.Stored slice.memory listed →
        (listed.length < maxEntries → table.EndsAt slice.memory start stop listed.length) →
        (∀ target, target ∈ found ↔ target ∈ listed) ∧
          found.Pairwise fun first second => listed.idxOf first < listed.idxOf second := by
  intro start stop found
  refine ⟨nodup_eraseDups _, ?_, ?_⟩
  · intro target member
    exact mem_entries (List.mem_eraseDups.mp member)
  · intro listed bounded inside stored ends
    have isListed : found = listed.eraseDups := stored.targets bounded inside ends
    rw [isListed]
    exact ⟨fun target => List.mem_eraseDups, eraseDups_rising listed⟩

/-- A function that reads a table of offsets behind its code, the first of which an earlier section
covers in part. -/
def tableReader : FunctionSlice :=
  { address := 0x1000
    content := List.replicate 16 0x90
    memory := { segments := [
      { address := 0x1FFE, size := 4, content := [0, 0, 0, 0] },
      { address := 0x1FFC, size := 20, content := [1, 2, 3, 4, 0x08, 0xf0, 0xff, 0xff,
          0x00, 0xf0, 0xff, 0xff, 0x08, 0xf0, 0xff, 0xff, 0, 0, 0, 0] }] } }

def offsetTable : JumpTable :=
  { address := 0x2000, entrySize := 4, relative := true }

theorem offsetTable_stored : offsetTable.Stored tableReader.memory [0x1008, 0x1000, 0x1008] :=
  ⟨[{ address := 0x1FFE, size := 4, content := [0, 0, 0, 0] }], _, [1, 2, 3, 4],
    { segments := ⟨[], rfl⟩
      content := ⟨[0, 0, 0, 0], by decide⟩
      address := by decide
      fits := by decide
      hidden := by decide }⟩

theorem targets_listed_offsets :
    let found := offsetTable.targets tableReader.memory 0x1000 0x1010
    offsetTable.Stored tableReader.memory [0x1008, 0x1000, 0x1008] ∧
      offsetTable.EndsAt tableReader.memory 0x1000 0x1010 3 ∧
      (∀ target, target ∈ found ↔ target ∈ [0x1008, 0x1000, 0x1008]) ∧
      found.Pairwise fun first second =>
        [0x1008, 0x1000, 0x1008].idxOf first < [0x1008, 0x1000, 0x1008].idxOf second := by
  have ends : offsetTable.EndsAt tableReader.memory 0x1000 0x1010 3 := by
    intro entry read
    have zero : offsetTable.targetOf [0, 0, 0, 0] = 0x2000 := by decide
    obtain rfl : [0, 0, 0, 0] = entry := Option.some.inj read
    rw [zero]
    decide
  obtain ⟨_, _, listed⟩ := targets_listed tableReader offsetTable
  exact ⟨offsetTable_stored, ends,
    listed [0x1008, 0x1000, 0x1008] (by decide) (by decide) offsetTable_stored fun _ => ends⟩

end Machine.JumpTable

end FlowAlign
