import FlowAlign.Image.Universal
import FlowAlign.Proofs.Walk
import Mathlib.Data.List.Infix

/-!
Universal files inside of universal files. A slice is a stretch of the file around it, so it is shorter
or it is that file. Following the slices of a format therefore ends unless it comes to a file that is a
slice of itself.
-/

namespace FlowAlign

namespace Bytes

theorem field?_of_le {data : Bytes} (endian : Endian) {width offset : Nat}
    (inside : offset + width ≤ data.length) :
    data.field? endian width offset = some (number endian ((data.drop offset).take width)) :=
  if_pos inside

theorem field_of_le {data : Bytes} (endian : Endian) {width offset : Nat}
    (inside : offset + width ≤ data.length) :
    data.field endian width offset = .ok (number endian ((data.drop offset).take width)) := by
  rw [field, field?_of_le endian inside]

theorem field?_isSome {data : Bytes} {endian : Endian} {width offset value : Nat}
    (found : data.field? endian width offset = some value) : offset + width ≤ data.length := by
  unfold field? at found
  split at found
  · assumption
  · cases found

end Bytes

theorem FileKind.isUniversal_of_fatMacho {data : Bytes} (universal : ofBytes data = .fatMacho) :
    isUniversal data = true := by
  by_contra plain
  unfold ofBytes at universal
  rw [if_neg plain] at universal
  grind

namespace Universal

theorem layout_cases (data : Bytes) : layout data = { word := 8, entry := 32 } ∨
    layout data = { word := 4, entry := 20 } := by
  unfold layout
  split
  · exact Or.inl rfl
  · exact Or.inr rfl

theorem layout_fits (data : Bytes) : 8 + 2 * (layout data).word ≤ (layout data).entry := by
  rcases layout_cases data with wide | narrow
  · simp [wide]
  · simp [narrow]

/-- An entry of the table of slices is read if it is complete, and its slice is a stretch of the file. -/
theorem sliceAt_of_le {data : Bytes} {offset : Nat}
    (inside : offset + (layout data).entry ≤ data.length) :
    ∃ slice, sliceAt data (layout data) offset = .ok slice ∧
      data.field? .big 4 offset = some slice.cpuType ∧ slice.content <:+: data := by
  have fits := layout_fits data
  have enough : ¬ (data.length < offset + (layout data).entry) := not_lt.mpr inside
  have type := Bytes.field_of_le .big (show offset + 4 ≤ data.length by omega)
  have start := Bytes.field_of_le .big
    (show offset + 8 + (layout data).word ≤ data.length by omega)
  have size := Bytes.field_of_le .big
    (show offset + 8 + (layout data).word + (layout data).word ≤ data.length by omega)
  refine ⟨_, by simp only [sliceAt, enough, if_false, type, start, size]; rfl, ?_, ?_⟩
  · exact Bytes.field?_of_le .big (by omega)
  · exact (List.take_prefix _ _).isInfix.trans (List.drop_suffix _ _).isInfix

theorem sliceAt_of_lt {data : Bytes} {offset : Nat}
    (beyond : data.length < offset + (layout data).entry) :
    sliceAt data (layout data) offset = .error (.data .cutShort) := by
  simp only [sliceAt, beyond, if_true]
  rfl

variable {format : Format} {data : Bytes}

theorem slicesFrom_infix {count : Nat} : ∀ {offset : Nat} {slice : Slice},
    .ok slice ∈ slicesFrom data (layout data) count offset → slice.content <:+: data := by
  induction count with
  | zero => intro offset slice member; simp [slicesFrom] at member
  | succ count ih =>
      intro offset slice member
      rw [slicesFrom] at member
      rcases Nat.lt_or_ge data.length (offset + (layout data).entry) with beyond | inside
      · simp [sliceAt_of_lt beyond] at member
      · obtain ⟨first, found, _, stretch⟩ := sliceAt_of_le inside
        simp only [found, List.mem_cons, Except.ok.injEq] at member
        rcases member with rfl | later
        · exact stretch
        · exact ih later

theorem slices_infix {slice : Slice} (member : .ok slice ∈ slices data) :
    slice.content <:+: data := by
  rw [slices] at member
  split at member
  · simp at member
  · exact slicesFrom_infix member

theorem mem_of_pick {items : List (Except Fault Slice)} {slice : Slice}
    (picked : pick format items = .ok (some slice)) : .ok slice ∈ items := by
  induction items with
  | nil => simp [pick] at picked
  | cons item rest ih =>
      cases item with
      | error fault => simp [pick] at picked
      | ok first =>
          rw [pick] at picked
          split at picked
          · simp only [Except.ok.injEq, Option.some.injEq] at picked
            simp [picked]
          · exact List.mem_cons_of_mem _ (ih picked)

/-- The table of slices ends in the middle of an entry, and no entry before that is for the format. -/
def CutShort (format : Format) (data : Bytes) : Prop :=
  ∃ count index, data.field? .big 4 4 = some count ∧ index < count ∧
    data.length < 8 + (index + 1) * (layout data).entry ∧
    ∀ earlier < index, (data.field? .big 4 (8 + earlier * (layout data).entry)).bind
      Architecture.ofMacho? ≠ some format

theorem pick_slicesFrom_error {fault : Fault} : ∀ {count offset : Nat},
    pick format (slicesFrom data (layout data) count offset) = .error fault ↔
      fault = .data .cutShort ∧ ∃ index < count,
        data.length < offset + (index + 1) * (layout data).entry ∧
        ∀ earlier < index, (data.field? .big 4 (offset + earlier * (layout data).entry)).bind
          Architecture.ofMacho? ≠ some format := by
  intro count
  induction count with
  | zero => intro offset; simp [slicesFrom, pick]
  | succ count ih =>
      intro offset
      rw [slicesFrom]
      rcases Nat.lt_or_ge data.length (offset + (layout data).entry) with beyond | inside
      · rw [sliceAt_of_lt beyond, pick, Except.error.injEq]
        constructor
        · rintro rfl
          exact ⟨rfl, 0, by omega, by simpa using beyond, by simp⟩
        · exact fun short => short.1.symm
      · obtain ⟨first, found, type, _⟩ := sliceAt_of_le inside
        rw [found]
        simp only [pick]
        split
        · rename_i wanted
          constructor
          · intro picked
            cases picked
          · rintro ⟨_, index, _, beyond, others⟩
            cases index with
            | zero => omega
            | succ index =>
                have other := others 0 (by omega)
                rw [Nat.zero_mul, Nat.add_zero, type] at other
                exact absurd wanted other
        · rename_i unwanted
          rw [ih]
          have shift : ∀ index, offset + (layout data).entry + index * (layout data).entry =
              offset + (index + 1) * (layout data).entry := by
            intro index
            rw [Nat.add_mul]
            omega
          simp only [shift]
          constructor
          · rintro ⟨rfl, index, below, beyond, others⟩
            refine ⟨rfl, index + 1, by omega, beyond, ?_⟩
            intro earlier before
            cases earlier with
            | zero =>
                rw [Nat.zero_mul, Nat.add_zero, type]
                exact unwanted
            | succ earlier => exact others earlier (by omega)
          · rintro ⟨rfl, index, below, beyond, others⟩
            cases index with
            | zero => omega
            | succ index =>
                exact ⟨rfl, index, by omega, beyond,
                  fun earlier before => others (earlier + 1) (by omega)⟩

/-- The slice of a format inside of a universal file; other files have none. -/
def inner? (format : Format) (data : Bytes) : Option Bytes :=
  if FileKind.ofBytes data = .fatMacho then
    match pick format (slices data) with
    | .ok (some slice) => some slice.content
    | _ => none
  else none

theorem inner?_eq_some {inner : Bytes} :
    inner? format data = some inner ↔ FileKind.ofBytes data = .fatMacho ∧
      ∃ slice, pick format (slices data) = .ok (some slice) ∧ slice.content = inner := by
  unfold inner?
  split
  · rename_i universal
    simp only [universal, true_and]
    split
    · rename_i slice picked
      simp [picked]
    · rename_i other
      simp only [reduceCtorEq, false_iff, not_exists, not_and]
      exact fun slice picked => absurd picked (other slice)
  · rename_i plain
    simp [plain]

theorem inner?_infix {inner : Bytes} (inside : inner? format data = some inner) :
    inner <:+: data := by
  obtain ⟨_, slice, picked, rfl⟩ := inner?_eq_some.mp inside
  exact slices_infix (mem_of_pick picked)

theorem inner?_lower {count : Nat} {place next : Bytes}
    (apart : ∀ count reached, Walk.after (inner? format) data count = some reached →
      inner? format reached ≠ some reached)
    (isPlace : Walk.after (inner? format) data count = some place)
    (leads : inner? format place = some next) : next.length < place.length := by
  have stretch := inner?_infix leads
  -- a stretch that is no shorter is the file itself
  refine Nat.lt_of_le_of_ne stretch.length_le ?_
  intro same
  rw [stretch.eq_of_length same] at leads
  exact apart count place isPlace leads

/-- Following the slices of a format ends unless it comes to a file that is a slice of itself. -/
theorem inner?_ends_iff :
    Walk.Ends (inner? format) data ↔ ∀ count reached,
      Walk.after (inner? format) data count = some reached → inner? format reached ≠ some reached := by
  constructor
  · intro ends count reached isReached itself
    have again : Walk.after (inner? format) data (count + 1) = some reached := by
      rw [Walk.after, isReached, Option.bind_some, itself]
    exact Walk.not_ends_of_return (Nat.lt_succ_self count) isReached again ends
  · exact fun apart => ⟨_, Walk.ends_of_lower List.length fun _ _ _ => inner?_lower apart⟩

theorem inner?_levels (ends : Walk.Ends (inner? format) data) :
    ∃ levels last, levels ≤ data.length ∧ Walk.after (inner? format) data levels = some last ∧
      inner? format last = none := by
  have ended : Walk.after (inner? format) data (data.length + 1) = none :=
    Walk.ends_of_lower List.length fun _ _ _ => inner?_lower (inner?_ends_iff.mp ends)
  obtain ⟨levels, last, below, isLast, innermost⟩ := Walk.exists_last ended
  exact ⟨levels, last, by omega, isLast, innermost⟩

/-- What unwrapping can end with: a file of another kind, no slice of the format, or a table of slices
that is cut short. -/
inductive Settled (format : Format) (description : String) (last : Bytes) :
    Except Fault Bytes → Prop
  | plain : FileKind.ofBytes last ≠ .fatMacho → Settled format description last (.ok last)
  | absent : FileKind.ofBytes last = .fatMacho → Settled format description last
      (.error (.mismatch none (.notInUniversal format description)))
  | cutShort : FileKind.ofBytes last = .fatMacho → CutShort format last →
      Settled format description last (.error (.data .cutShort))

/-- The defects of universal files that are not diagnosed: a table of slices that is cut short, and
slices too far inside of one another. -/
inductive Breaks (format : Format) (data : Bytes) : DataFault → Prop
  | cutShort {level reached} : level < maxNesting →
      Walk.after (inner? format) data level = some reached →
      FileKind.ofBytes reached = .fatMacho → CutShort format reached → Breaks format data .cutShort
  | tooDeep : Walk.after (inner? format) data maxNesting ≠ none → Breaks format data .tooDeep

theorem Breaks.universal {cause : DataFault} (breaks : Breaks format data cause) :
    FileKind.ofBytes data = .fatMacho := by
  have leads : ∀ {count reached}, Walk.after (inner? format) data (count + 1) = some reached →
      FileKind.ofBytes data = .fatMacho := by
    intro count reached isReached
    rw [Walk.after_front] at isReached
    obtain ⟨_, inside, _⟩ := Option.bind_eq_some_iff.mp isReached
    exact (inner?_eq_some.mp inside).1
  cases breaks with
  | @cutShort level reached _ isReached universal _ =>
      cases level with
      | zero =>
          obtain rfl : data = reached := Option.some.inj isReached
          exact universal
      | succ level => exact leads isReached
  | tooDeep deep =>
      obtain ⟨reached, isReached⟩ := Option.ne_none_iff_exists'.mp deep
      exact leads isReached

theorem pick_slices_error {fault : Fault} (universal : FileKind.ofBytes data = .fatMacho) :
    pick format (slices data) = .error fault ↔ fault = .data .cutShort ∧ CutShort format data := by
  have marked := FileKind.isUniversal_of_fatMacho universal
  simp only [FileKind.isUniversal, Bool.and_eq_true, Option.any_eq_true] at marked
  obtain ⟨_, count, found, _⟩ := marked
  simp only [slices, Bytes.field, found, pick_slicesFrom_error, CutShort, Option.some.injEq,
    exists_and_left, exists_eq_left']

section Unwrap

variable (description : String)

theorem unwrapFrom_after {level : Nat} : ∀ {data reached : Bytes},
    Walk.after (inner? format) data level = some reached → ∀ fuel,
      unwrapFrom format description (level + fuel) data =
        unwrapFrom format description fuel reached := by
  induction level with
  | zero =>
      intro data reached isReached fuel
      obtain rfl : data = reached := Option.some.inj isReached
      rw [Nat.zero_add]
  | succ level ih =>
      intro data reached isReached fuel
      rw [Walk.after_front] at isReached
      obtain ⟨inner, inside, isReached⟩ := Option.bind_eq_some_iff.mp isReached
      obtain ⟨universal, slice, picked, rfl⟩ := inner?_eq_some.mp inside
      rw [Nat.add_right_comm, ← ih isReached fuel]
      simp only [unwrapFrom, universal, if_true, picked]

theorem unwrapFrom_last {last : Bytes} (innermost : inner? format last = none) :
    ∃ outcome, Settled format description last outcome ∧
      ∀ fuel, unwrapFrom format description (fuel + 1) last = outcome := by
  by_cases universal : FileKind.ofBytes last = .fatMacho
  · cases picked : pick format (slices last) with
    | error fault =>
        obtain ⟨rfl, short⟩ := (pick_slices_error universal).mp picked
        exact ⟨_, .cutShort universal short,
          fun fuel => by simp only [unwrapFrom, universal, if_true, picked]⟩
    | ok choice =>
        cases choice with
        | none => exact ⟨_, .absent universal,
            fun fuel => by simp only [unwrapFrom, universal, if_true, picked]⟩
        | some slice =>
            rw [inner?_eq_some.mpr ⟨universal, slice, picked, rfl⟩] at innermost
            cases innermost
  · exact ⟨_, .plain universal, fun fuel => by simp only [unwrapFrom, universal, if_false]⟩

/-- With more levels allowed than lead to the last file, unwrapping settles on that file. -/
theorem unwrapFrom_of_last {level : Nat} {last : Bytes}
    (isLast : Walk.after (inner? format) data level = some last)
    (innermost : inner? format last = none) :
    ∃ outcome, Settled format description last outcome ∧
      ∀ fuel, level < fuel → unwrapFrom format description fuel data = outcome := by
  obtain ⟨outcome, settled, unwrapped⟩ := unwrapFrom_last description innermost
  refine ⟨outcome, settled, ?_⟩
  intro fuel enough
  obtain ⟨more, rfl⟩ := Nat.exists_eq_add_of_lt enough
  rw [Nat.add_assoc, unwrapFrom_after description isLast, unwrapped]

theorem unwrapFrom_settles (ends : Walk.Ends (inner? format) data) :
    ∃ levels last outcome, levels ≤ data.length ∧
      Walk.after (inner? format) data levels = some last ∧ Settled format description last outcome ∧
      ∀ fuel, levels < fuel → unwrapFrom format description fuel data = outcome := by
  obtain ⟨levels, last, bound, isLast, innermost⟩ := inner?_levels ends
  obtain ⟨outcome, settled, unwrapped⟩ := unwrapFrom_of_last description isLast innermost
  exact ⟨levels, last, outcome, bound, isLast, settled, unwrapped⟩

/-- Levels beyond those that the walk through the slices takes change nothing. -/
theorem unwrapFrom_of_le {level fuel : Nat} (ended : Walk.after (inner? format) data level = none)
    (enough : level ≤ fuel) :
    unwrapFrom format description fuel data = unwrapFrom format description level data := by
  obtain ⟨number, last, below, isLast, innermost⟩ := Walk.exists_last ended
  obtain ⟨outcome, _, unwrapped⟩ := unwrapFrom_of_last description isLast innermost
  rw [unwrapped fuel (Nat.lt_of_lt_of_le below enough), unwrapped level below]

theorem unwrapFrom_tooDeep {fuel : Nat} (deep : Walk.after (inner? format) data fuel ≠ none) :
    unwrapFrom format description fuel data = .error (.data .tooDeep) := by
  obtain ⟨reached, isReached⟩ := Option.ne_none_iff_exists'.mp deep
  exact unwrapFrom_after description isReached 0

theorem unwrap_fault {fault : Fault} (failed : unwrap format description data = .error fault) :
    fault = .mismatch none (.notInUniversal format description) ∨
    ∃ cause, fault = .data cause ∧ Breaks format data cause := by
  rw [unwrap] at failed
  by_cases deep : Walk.after (inner? format) data maxNesting = none
  · obtain ⟨level, last, below, isLast, innermost⟩ := Walk.exists_last deep
    obtain ⟨outcome, settled, unwrapped⟩ := unwrapFrom_of_last description isLast innermost
    rw [unwrapped maxNesting below] at failed
    subst failed
    cases settled with
    | absent _ => exact Or.inl rfl
    | cutShort universal short => exact Or.inr ⟨_, rfl, .cutShort below isLast universal short⟩
  · rw [unwrapFrom_tooDeep description deep, Except.error.injEq] at failed
    exact Or.inr ⟨_, failed.symm, .tooDeep deep⟩

theorem unwrap_of_breaks {cause : DataFault} (breaks : Breaks format data cause) :
    unwrap format description data = .error (.data cause) := by
  rw [unwrap]
  cases breaks with
  | @cutShort level reached below isReached universal short =>
      obtain ⟨more, enough⟩ := Nat.exists_eq_add_of_lt below
      have picked := (pick_slices_error universal).mpr ⟨rfl, short⟩
      rw [enough, Nat.add_assoc, unwrapFrom_after description isReached]
      simp only [unwrapFrom, universal, if_true, picked]
  | tooDeep deep => exact unwrapFrom_tooDeep description deep

end Unwrap

/-- A universal file with one slice, which is the file itself. -/
def selfContained : Bytes :=
  Magic.fat ++ [0, 0, 0, 1] ++ [0, 0, 0, 7] ++ [0, 0, 0, 3] ++ [0, 0, 0, 0] ++ [0, 0, 0, 28] ++
    [0, 0, 0, 2]

theorem selfContained_inner : inner? .x86 selfContained = some selfContained := by
  decide

/-- A universal file that ends where its only entry should begin. -/
def entryless : Bytes :=
  Magic.fat ++ [0, 0, 0, 1]

end Universal

end FlowAlign
