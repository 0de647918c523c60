import Mathlib
import FlowAlign.Image.Archive
import FlowAlign.Proofs.Position
import FlowAlign.Proofs.Walk

/-!
Walks through archives. A header leads on by its size, and a size below zero leads back as soon as it
outweighs the header itself. So a walk ends exactly when it meets no offset twice, and it always ends
when the sizes it follows are not that low.
-/

namespace FlowAlign

namespace Archive

def Step.next? : Step → Option Cursor
  | .finish => none
  | .fault _ => none
  | .table next => some next
  | .member _ next => some next

/-- Where the header at a cursor leads, nothing when the walk ends there. -/
def next? (data : Bytes) (cursor : Cursor) : Option Cursor :=
  (step data cursor).next?

def headerAt (data : Bytes) (offset : Int) : Bytes :=
  Position.slice data offset (offset + headerSize)

def sizeAt? (data : Bytes) (offset : Int) : Option Int :=
  sizeField? (headerAt data offset)

/-- Whether a name field announces a name in front of the content, but no length of it. -/
def lacksLength (field : String) : Bool :=
  Text.startsWith field "#1/" && (Text.readInt? (Text.dropStart 3 field)).isNone

/-- A header that is complete, marked as one, and has a size. -/
structure Headed (data : Bytes) (offset size : Int) : Prop where
  inside : offset + headerSize ≤ data.length
  marked : (headerAt data offset).drop 58 = [0x60, 0x0a]
  sized : sizeAt? data offset = some size

theorem named_next (name : String) (content : Bytes) (next : Cursor) :
    (named name content next).next? = some next := by
  unfold named
  split <;> rfl

theorem classify_of_lacksLength {field : String} (lacks : lacksLength field = true)
    (content : Bytes) (next : Cursor) :
    classify field content next = .fault (.data .unreadable) := by
  simp only [lacksLength, Bool.and_eq_true, Option.isNone_iff_eq_none] at lacks
  simp only [classify, lacks.1, if_true, lacks.2]

theorem classify_next {field : String} (has : lacksLength field = false) (content : Bytes)
    (next : Cursor) :
    ∃ after, (classify field content next).next? = some after ∧ after.offset = next.offset := by
  simp only [classify]
  split
  · rename_i announced
    cases length : Text.readInt? (Text.dropStart 3 field) with
    | none => simp [lacksLength, announced, length] at has
    | some value => exact ⟨next, named_next _ _ _, rfl⟩
  · split
    · exact ⟨_, rfl, rfl⟩
    · split
      · exact ⟨next, named_next _ _ _, rfl⟩
      · exact ⟨next, named_next _ _ _, rfl⟩

section Step

variable {data : Bytes} {cursor : Cursor}

theorem step_of_headed {size : Int} (headed : Headed data cursor.offset size) :
    step data cursor = classify (nameField (headerAt data cursor.offset))
      (Position.slice data (cursor.offset + headerSize) (cursor.offset + headerSize + size))
      { cursor with offset := cursor.offset + headerSize + size + size % 2 } := by
  have enough : ¬ (data.length < cursor.offset + headerSize) := not_lt.mpr headed.inside
  have marked := headed.marked
  have sized := headed.sized
  simp only [sizeAt?, headerAt] at marked sized
  simp only [step, enough, if_false, marked, ne_eq, not_true_eq_false, sized, headerAt]

/-- What can be wrong with a header: its mark, its size, or the length of the name that it announces. -/
theorem step_fault {cause : Fault} (failed : step data cursor = .fault cause) :
    cause = .input none (.malformedHeader cursor.offset) ∨
    cause = .input none (.malformedSize cursor.offset) ∨
    (∃ size, Headed data cursor.offset size) ∧
      lacksLength (nameField (headerAt data cursor.offset)) = true ∧
      cause = .data .unreadable := by
  by_cases enough : data.length < cursor.offset + headerSize
  · simp [step, enough] at failed
  by_cases marked : (headerAt data cursor.offset).drop 58 = [0x60, 0x0a]
  · cases sized : sizeAt? data cursor.offset with
    | none =>
        simp only [headerAt, sizeAt?] at marked sized
        simp only [step, enough, if_false, marked, ne_eq, not_true_eq_false, sized,
          Step.fault.injEq] at failed
        exact Or.inr (Or.inl failed.symm)
    | some size =>
        have headed : Headed data cursor.offset size := ⟨not_lt.mp enough, marked, sized⟩
        rw [step_of_headed headed] at failed
        cases lacks : lacksLength (nameField (headerAt data cursor.offset)) with
        | true =>
            rw [classify_of_lacksLength lacks, Step.fault.injEq] at failed
            exact Or.inr (Or.inr ⟨⟨size, headed⟩, rfl, failed.symm⟩)
        | false =>
            obtain ⟨after, leads, _⟩ := classify_next lacks _ _
            rw [failed] at leads
            cases leads
  · simp only [headerAt] at marked
    simp only [step, enough, if_false, ne_eq, marked, not_false_eq_true, if_true,
      Step.fault.injEq] at failed
    exact Or.inl failed.symm

/-- Only a whole header leads on, by its own length, its size and the padding. -/
theorem next?_eq_some {next : Cursor} (leads : next? data cursor = some next) :
    ∃ size, Headed data cursor.offset size ∧
      lacksLength (nameField (headerAt data cursor.offset)) = false ∧
      next.offset = cursor.offset + headerSize + size + size % 2 := by
  by_cases enough : data.length < cursor.offset + headerSize
  · simp [next?, step, enough, Step.next?] at leads
  by_cases marked : (headerAt data cursor.offset).drop 58 = [0x60, 0x0a]
  · cases sized : sizeAt? data cursor.offset with
    | none =>
        simp only [headerAt, sizeAt?] at marked sized
        simp [next?, step, enough, marked, sized, Step.next?] at leads
    | some size =>
        have headed : Headed data cursor.offset size := ⟨not_lt.mp enough, marked, sized⟩
        rw [next?, step_of_headed headed] at leads
        refine ⟨size, headed, ?_⟩
        cases lacks : lacksLength (nameField (headerAt data cursor.offset)) with
        | true =>
            rw [classify_of_lacksLength lacks] at leads
            cases leads
        | false =>
            obtain ⟨after, leads', offset⟩ := classify_next lacks
              (Position.slice data (cursor.offset + headerSize) (cursor.offset + headerSize + size))
              { cursor with offset := cursor.offset + headerSize + size + size % 2 }
            rw [leads, Option.some.injEq] at leads'
            exact ⟨rfl, leads' ▸ offset⟩
  · simp only [headerAt] at marked
    simp [next?, step, enough, marked, Step.next?] at leads

theorem next?_of_headed {size : Int} (headed : Headed data cursor.offset size)
    (has : lacksLength (nameField (headerAt data cursor.offset)) = false) :
    ∃ next, next? data cursor = some next ∧
      next.offset = cursor.offset + headerSize + size + size % 2 := by
  rw [next?, step_of_headed headed]
  exact classify_next has _ _

end Step

/-- Offsets are followed whatever table of long names has been met. -/
theorem next?_guides (data : Bytes) (place other : Cursor) (same : place.offset = other.offset) :
    (next? data place).map Cursor.offset = (next? data other).map Cursor.offset := by
  have onward : ∀ {place other next : Cursor}, place.offset = other.offset →
      next? data place = some next → ∃ next', next? data other = some next' ∧
        next'.offset = next.offset := by
    intro place other next same leads
    obtain ⟨size, headed, has, offset⟩ := next?_eq_some leads
    rw [same] at headed has offset
    obtain ⟨next', leads', offset'⟩ := next?_of_headed headed has
    exact ⟨next', leads', offset'.trans offset.symm⟩
  cases leads : next? data place with
  | some next =>
      obtain ⟨next', leads', offset⟩ := onward same leads
      simp [leads', offset]
  | none =>
      cases leads' : next? data other with
      | none => rfl
      | some next' =>
          obtain ⟨next, leads'', _⟩ := onward same.symm leads'
          rw [leads] at leads''
          cases leads''

theorem offset_held {data : Bytes} {place next : Cursor} (leads : next? data place = some next) :
    place.offset ∈ Finset.Ico (-(data.length : Int)) data.length := by
  obtain ⟨size, headed, _, _⟩ := next?_eq_some leads
  have whole := congrArg List.length headed.marked
  have inside := headed.inside
  simp only [headerAt, List.length_drop, Position.slice_length, List.length_cons,
    List.length_nil, headerSize, Position.bound] at whole inside
  rw [Finset.mem_Ico]
  -- a place in front of the data counts from its end, where it has to hold a whole header as well
  split at whole <;> split at whole <;> omega

theorem walk_endless_iff (data : Bytes) : ∀ (fuel : Nat) (cursor : Cursor),
    .error (.data .endless) ∈ walk data fuel cursor ↔
      Walk.after (next? data) cursor fuel ≠ none := by
  intro fuel
  induction fuel with
  | zero => intro cursor; simp [walk, Walk.after]
  | succ fuel ih =>
      intro cursor
      rw [Walk.after_front]
      simp only [walk, next?]
      cases stepped : step data cursor with
      | finish => simp [Step.next?]
      | fault cause =>
          rcases step_fault stepped with rfl | rfl | ⟨_, _, rfl⟩ <;> simp [Step.next?]
      | table next => simpa [Step.next?] using ih next
      | member found next => simpa [Step.next?] using ih next

theorem walk_add (data : Bytes) (more : Nat) : ∀ (fuel : Nat) (cursor : Cursor),
    Walk.after (next? data) cursor fuel = none →
      walk data (fuel + more) cursor = walk data fuel cursor := by
  intro fuel
  induction fuel with
  | zero => intro cursor ended; simp [Walk.after] at ended
  | succ fuel ih =>
      intro cursor ended
      rw [Walk.after_front] at ended
      rw [Nat.add_right_comm]
      simp only [next?] at ended
      simp only [walk]
      cases stepped : step data cursor with
      | finish => rfl
      | fault cause => rfl
      | table next =>
          simp only [stepped, Step.next?, Option.bind_some] at ended
          exact ih next ended
      | member found next =>
          simp only [stepped, Step.next?, Option.bind_some] at ended
          exact congrArg (Except.ok found :: ·) (ih next ended)

theorem cut_off (data : Bytes) :
    (Finset.Ico (-(data.length : Int)) data.length).card < 2 * data.length + 2 := by
  rw [Int.card_Ico]
  omega

theorem ends_iff_within (data : Bytes) :
    Walk.Ends (next? data) start ↔
      Walk.after (next? data) start (2 * data.length + 2) = none := by
  constructor
  · intro ends
    by_contra goesOn
    -- there are fewer offsets than steps, so one of them was met twice
    obtain ⟨first, second, place, other, below, _, isPlace, isOther, same⟩ :=
      Walk.exists_repeat (fun _ _ leads => offset_held leads) (cut_off data) goesOn
    exact Walk.not_ends_of_repeat (next?_guides data) below isPlace isOther same ends
  · exact fun ended => ⟨_, ended⟩

theorem ends_iff_distinct (data : Bytes) :
    Walk.Ends (next? data) start ↔ ∀ first second place other,
      Walk.after (next? data) start first = some place →
      Walk.after (next? data) start second = some other →
      place.offset = other.offset → first = second := by
  constructor
  · intro ends first second place other isPlace isOther same
    by_contra apart
    rcases Nat.lt_or_gt_of_ne apart with below | below
    · exact Walk.not_ends_of_repeat (next?_guides data) below isPlace isOther same ends
    · exact Walk.not_ends_of_repeat (next?_guides data) below isOther isPlace same.symm ends
  · intro distinct
    refine ⟨2 * data.length + 2, ?_⟩
    by_contra goesOn
    obtain ⟨first, second, place, other, below, _, isPlace, isOther, same⟩ :=
      Walk.exists_repeat (fun _ _ leads => offset_held leads) (cut_off data) goesOn
    exact Nat.ne_of_lt below (distinct first second place other isPlace isOther same)

theorem members_endless_iff (data : Bytes) :
    .error (.data .endless) ∈ members data ↔ ¬ Walk.Ends (next? data) start := by
  rw [members, walk_endless_iff, ends_iff_within]

/-- The defects of archives that are not diagnosed: a name of unknown length, and headers that go round
in a circle. -/
inductive Breaks (data : Bytes) : DataFault → Prop
  | unreadable {count place size} : Walk.after (next? data) start count = some place →
      Headed data place.offset size →
      lacksLength (nameField (headerAt data place.offset)) = true → Breaks data .unreadable
  | endless : ¬ Walk.Ends (next? data) start → Breaks data .endless

theorem mem_walk_error {data : Bytes} {fault : Fault} : ∀ {fuel : Nat} {cursor : Cursor},
    .error fault ∈ walk data fuel cursor → fault = .data .endless ∨
      ∃ count place, Walk.after (next? data) cursor count = some place ∧
        step data place = .fault fault := by
  intro fuel
  induction fuel with
  | zero =>
      intro cursor member
      simp only [walk, List.mem_singleton, Except.error.injEq] at member
      exact Or.inl member
  | succ fuel ih =>
      intro cursor member
      have onward : ∀ next, next? data cursor = some next → .error fault ∈ walk data fuel next →
          fault = .data .endless ∨ ∃ count place,
            Walk.after (next? data) cursor count = some place ∧ step data place = .fault fault := by
        intro next leads later
        rcases ih later with endless | ⟨count, place, isPlace, failed⟩
        · exact Or.inl endless
        · refine Or.inr ⟨count + 1, place, ?_, failed⟩
          rw [Walk.after_front, leads, Option.bind_some, isPlace]
      rw [walk] at member
      cases stepped : step data cursor with
      | finish => simp [stepped] at member
      | fault cause =>
          simp only [stepped, List.mem_singleton, Except.error.injEq] at member
          exact Or.inr ⟨0, cursor, rfl, member ▸ stepped⟩
      | table next =>
          rw [stepped] at member
          exact onward next (by rw [next?, stepped]; rfl) member
      | member found next =>
          simp only [stepped, List.mem_cons, reduceCtorEq, false_or] at member
          exact onward next (by rw [next?, stepped]; rfl) member

/-- A fault among the members says what is wrong with the archive, or is one of its defects. -/
theorem mem_members_error {data : Bytes} {fault : Fault}
    (member : .error fault ∈ members data) :
    (∃ cause, fault = .input none cause) ∨ ∃ cause, fault = .data cause ∧ Breaks data cause := by
  rcases mem_walk_error member with rfl | ⟨count, place, isPlace, failed⟩
  · exact Or.inr ⟨_, rfl, .endless ((members_endless_iff data).mp member)⟩
  · rcases step_fault failed with rfl | rfl | ⟨⟨size, headed⟩, lacks, rfl⟩
    · exact Or.inl ⟨_, rfl⟩
    · exact Or.inl ⟨_, rfl⟩
    · exact Or.inr ⟨_, rfl, .unreadable isPlace headed lacks⟩

theorem mem_walk_of_fault {data : Bytes} {fault : Fault} {place : Cursor}
    (failed : step data place = .fault fault) : ∀ {count fuel : Nat} {cursor : Cursor},
    count < fuel → Walk.after (next? data) cursor count = some place →
      .error fault ∈ walk data fuel cursor := by
  intro count
  induction count with
  | zero =>
      intro fuel cursor below isPlace
      obtain rfl : cursor = place := Option.some.inj isPlace
      obtain ⟨fuel, rfl⟩ := Nat.exists_eq_add_of_lt below
      simp [walk, failed]
  | succ count ih =>
      intro fuel cursor below isPlace
      obtain ⟨fuel, rfl⟩ : ∃ less, fuel = less + 1 := ⟨fuel - 1, by omega⟩
      rw [Walk.after_front] at isPlace
      obtain ⟨next, leads, isPlace⟩ := Option.bind_eq_some_iff.mp isPlace
      have later : .error fault ∈ walk data fuel next := ih (by omega) isPlace
      rw [walk]
      cases stepped : step data cursor with
      | finish => simp [next?, stepped, Step.next?] at leads
      | fault cause => simp [next?, stepped, Step.next?] at leads
      | table after =>
          obtain rfl : after = next := by simpa [next?, stepped, Step.next?] using leads
          exact later
      | member found after =>
          obtain rfl : after = next := by simpa [next?, stepped, Step.next?] using leads
          exact List.mem_cons_of_mem _ later

theorem mem_members_of_breaks {data : Bytes} {cause : DataFault} (breaks : Breaks data cause) :
    .error (.data cause) ∈ members data := by
  cases breaks with
  | endless endless => exact (members_endless_iff data).mpr endless
  | @unreadable count place size isPlace headed lacks =>
      have failed : step data place = .fault (.data .unreadable) := by
        rw [step_of_headed headed, classify_of_lacksLength lacks]
      have last : Walk.after (next? data) start (count + 1) = none := by
        rw [Walk.after, isPlace, Option.bind_some, next?, failed]
        rfl
      -- the fault ends the walk, so it is found before the walk is cut off
      have ended := (ends_iff_within data).mp ⟨_, last⟩
      have below : count < 2 * data.length + 2 := by
        by_contra beyond
        rw [Walk.after_eq_none_of_le ended (by omega)] at isPlace
        cases isPlace
      exact mem_walk_of_fault failed below isPlace

/-- A header leads on to a larger offset exactly when its size outweighs the header itself. -/
theorem next?_rises {data : Bytes} {place next : Cursor} (leads : next? data place = some next) :
    ∃ size, sizeAt? data place.offset = some size ∧
      next.offset = place.offset + headerSize + size + size % 2 ∧
      (place.offset < next.offset ↔ -60 < size) := by
  obtain ⟨size, headed, _, offset⟩ := next?_eq_some leads
  refine ⟨size, headed.sized, offset, ?_⟩
  rw [offset, headerSize]
  omega

theorem ends_of_rising {data : Bytes}
    (rising : ∀ count place next, Walk.after (next? data) start count = some place →
      next? data place = some next → place.offset < next.offset) :
    Walk.after (next? data) start (data.length + 1) = none := by
  have inFront : 0 ≤ start.offset := by decide
  have room : ((data.length : Int) - start.offset).toNat ≤ data.length := by omega
  refine Walk.after_eq_none_of_le (Walk.ends_of_lower
    (fun cursor => ((data.length : Int) - cursor.offset).toNat) ?_) (Nat.succ_le_succ room)
  intro count place next isPlace leads
  have further := rising count place next isPlace leads
  obtain ⟨_, headed, _, _⟩ := next?_eq_some leads
  have inside := headed.inside
  rw [headerSize] at inside
  omega

/-- A walk through an archive ends exactly when it meets no offset twice, and only a walk without an end
is cut off. Offsets rise at every header whose size outweighs the header, and where all sizes that are
followed do, there are at most as many headers as bytes. -/
theorem walk_ends_iff (data : Bytes) :
    (Walk.Ends (next? data) start ↔ ∀ first second place other,
      Walk.after (next? data) start first = some place →
      Walk.after (next? data) start second = some other →
      place.offset = other.offset → first = second) ∧
    (Walk.Ends (next? data) start ↔ .error (.data .endless) ∉ members data) ∧
    (Walk.Ends (next? data) start →
      ∀ more, walk data (2 * data.length + 2 + more) start = members data) ∧
    (∀ place next, next? data place = some next → ∃ size, sizeAt? data place.offset = some size ∧
      next.offset = place.offset + headerSize + size + size % 2 ∧
      (place.offset < next.offset ↔ -60 < size)) ∧
    ((∀ count place next size, Walk.after (next? data) start count = some place →
        next? data place = some next → sizeAt? data place.offset = some size → -60 < size) →
      Walk.after (next? data) start (data.length + 1) = none) := by
  refine ⟨ends_iff_distinct data, ?_, ?_, fun _ _ leads => next?_rises leads, ?_⟩
  · rw [members_endless_iff, not_not]
  · intro ends more
    exact walk_add data more _ start ((ends_iff_within data).mp ends)
  · intro outweighs
    apply ends_of_rising
    intro count place next isPlace leads
    obtain ⟨size, sized, _, rises⟩ := next?_rises leads
    exact rises.mpr (outweighs count place next size isPlace leads sized)

def fieldBytes (width : Nat) (text : String) : Bytes :=
  (text.toList.map fun char => UInt8.ofNat char.toNat) ++
    List.replicate (width - text.toList.length) 32

/-- A header with a name and a size; its other fields are blank. -/
def headerBytes (name size : String) : Bytes :=
  fieldBytes 16 name ++ fieldBytes 32 "" ++ fieldBytes 10 size ++ [0x60, 0x0a]

/-- An archive whose only header has a size that takes back its own length. -/
def circularArchive : Bytes :=
  Magic.archive ++ headerBytes "a.o/" "-60"

/-- An archive whose only header leads to a place in front of the data. -/
def returningArchive : Bytes :=
  Magic.archive ++ headerBytes "a.o/" "-70"

theorem circularArchive_next : next? circularArchive start = some start := by
  decide

theorem returningArchive_next : next? returningArchive start = some { start with offset := -2 } := by
  decide

theorem returningArchive_last : next? returningArchive { start with offset := -2 } = none := by
  decide

/-- One header is read over and over again; another one leads back by ten bytes, where the walk ends. -/
theorem archive_circular :
    ¬ Walk.Ends (next? circularArchive) start ∧
    .error (.data .endless) ∈ members circularArchive ∧
    Walk.Ends (next? returningArchive) start ∧
    ∃ next, next? returningArchive start = some next ∧ next.offset < start.offset := by
  have comesBack : Walk.after (next? circularArchive) start 1 = some start := circularArchive_next
  have endless : ¬ Walk.Ends (next? circularArchive) start :=
    Walk.not_ends_of_return Nat.zero_lt_one rfl comesBack
  refine ⟨endless, (members_endless_iff _).mpr endless, ⟨2, ?_⟩, _, returningArchive_next, by decide⟩
  rw [Walk.after_front, returningArchive_next, Option.bind_some, Walk.after_front,
    returningArchive_last, Option.bind_none]

end Archive

end FlowAlign
