import FlowAlign.Load.Native
import FlowAlign.Proofs.Image.Archive
import FlowAlign.Proofs.Image.Universal
import FlowAlign.Proofs.Position
import FlowAlign.Proofs.Related

/-!
What reading object files and archives of them can fail with. Whatever the bytes of a file are, the
fault says what is wrong with the file and names it, but for a few defects of the tables that lead into
the objects.
-/

namespace FlowAlign

theorem Table.mem_group {κ β : Type} [DecidableEq κ] {entries : List (κ × β)} {key : κ}
    {values : List β} (member : (key, values) ∈ group entries) : ∃ value, (key, value) ∈ entries := by
  obtain ⟨other, isKey, same⟩ := List.mem_map.mp member
  obtain rfl : other = key := congrArg Prod.fst same
  simpa [keys, List.mem_eraseDups] using isKey

namespace Reading

variable {β γ : Type} (toolkit : Toolkit)

@[simp] theorem outcome_pure (value : β) :
    ((pure value : Reading β) toolkit).outcome = .ok (value, toolkit) :=
  rfl

@[simp] theorem outcome_bind (first : Reading β) (next : β → Reading γ) :
    ((first >>= next) toolkit).outcome =
      (first toolkit).outcome >>= fun result => (next result.1 result.2).outcome :=
  Logged.outcome_bind (first toolkit) fun result => next result.1 result.2

@[simp] theorem outcome_throw (fault : Fault) :
    ((throw fault : Reading β) toolkit).outcome = .error fault :=
  rfl

@[simp] theorem outcome_logged (run : Logged Fault β) :
    ((liftM run : Reading β) toolkit).outcome = run.outcome >>= fun value => .ok (value, toolkit) :=
  Logged.outcome_bind run fun value => pure (value, toolkit)

@[simp] theorem outcome_except (run : Except Fault β) :
    ((liftM run : Reading β) toolkit).outcome = run >>= fun value => .ok (value, toolkit) :=
  Logged.outcome_bind (Logged.ofExcept run) fun value => pure (value, toolkit)

end Reading

namespace Image

/-- Symbols refer to sections by numbers that are not below zero. -/
structure Consistent (image : Image) : Prop where
  indices : ∀ symbol ∈ image.symbols, 0 ≤ symbol.sectionIndex
  numbers : ∀ symbol ∈ image.symbols, 0 ≤ symbol.sectionNumber

variable {image : Image} (consistent : image.Consistent) {format : Format}

include consistent

theorem elfSlice_ok (relocatable : Bool) {symbol : ObjectSymbol}
    (isSized : symbol ∈ image.sizedSymbols) :
    ∃ slice, (image.elfSlice format relocatable symbol).outcome = .ok slice := by
  simp only [sizedSymbols, List.mem_filter, isDefinedFunction, Bool.and_eq_true,
    decide_eq_true_eq] at isSized
  obtain ⟨⟨member, _, below⟩, _⟩ := isSized
  have inside := consistent.indices symbol member
  cases picked : Position.pick image.sections symbol.sectionIndex with
  | error fault => exact absurd ⟨inside, below⟩ (Position.pick_fault picked).2
  | ok part =>
      simp only [elfSlice, Logged.outcome_bind, Logged.outcome_liftM, picked, Outcome.ok_bind]
      split
      · exact ⟨none, rfl⟩
      · exact ⟨_, rfl⟩

theorem elfFunctions_ok {data : Bytes} (whole : 18 ≤ data.length) :
    ∃ slices, (image.elfFunctions data format).outcome = .ok slices := by
  have type := Bytes.field_of_le ((Architecture.elfEndian? data).getD .big)
    (show 16 + 2 ≤ data.length by omega)
  cases sliced : (image.elfFunctions data format).outcome with
  | ok slices => exact ⟨slices, rfl⟩
  | error fault =>
      simp only [elfFunctions, Logged.outcome_bind, Logged.outcome_liftM, type, Outcome.ok_bind,
        Logged.outcome_leave, Logged.outcome_mapM, Logged.outcome_pure] at sliced
      rcases Outcome.bind_eq_error sliced with failed | ⟨_, _, failed⟩
      · obtain ⟨symbol, isSized, failed⟩ := Outcome.mapM_error failed
        obtain ⟨slice, found⟩ := elfSlice_ok consistent _ isSized
        rw [found] at failed
        cases failed
      · cases failed

theorem machoMark_ok (format : Format) {symbol : ObjectSymbol} (member : symbol ∈ image.symbols) :
    ∃ mark, image.machoMark format symbol = .ok mark ∧ ∀ number found,
      mark = some (number, found) → 0 < number ∧ number ≤ image.sections.length := by
  have notBelow := consistent.numbers symbol member
  simp only [machoMark]
  split
  · exact ⟨none, rfl, fun _ _ none' => by cases none'⟩
  · rename_i kept
    simp only [Bool.or_eq_true, decide_eq_true_eq, not_or, not_lt] at kept
    cases picked : Position.pick image.sections (symbol.sectionNumber - 1) with
    | error fault => exact absurd ⟨by omega, by omega⟩ (Position.pick_fault picked).2
    | ok part =>
        rw [Outcome.ok_bind]
        split
        · exact ⟨none, rfl, fun _ _ none' => by cases none'⟩
        · refine ⟨_, rfl, ?_⟩
          intro number found same
          cases same
          omega

theorem machoFunctions_ok : ∃ slices, image.machoFunctions format = .ok slices := by
  cases sliced : image.machoFunctions format with
  | ok slices => exact ⟨slices, rfl⟩
  | error fault =>
      rw [machoFunctions] at sliced
      rcases Outcome.bind_eq_error sliced with failed | ⟨marks, marked, failed⟩
      · obtain ⟨symbol, member, failed⟩ := Outcome.mapM_error failed
        obtain ⟨mark, found, _⟩ := machoMark_ok consistent format member
        rw [found] at failed
        cases failed
      rcases Outcome.bind_eq_error failed with failed | ⟨_, _, failed⟩
      · obtain ⟨⟨number, group⟩, isGroup, failed⟩ := Outcome.mapM_error failed
        obtain ⟨mark, isMark⟩ := Table.mem_group isGroup
        obtain ⟨symbol, member, found⟩ := mem_related (Outcome.related_of_mapM marked) _
          (by simpa using List.mem_filterMap.mp isMark)
        obtain ⟨_, found', inside⟩ := machoMark_ok consistent format member
        rw [found] at found'
        obtain ⟨positive, below⟩ := inside number mark (Except.ok.inj found').symm
        rcases Outcome.bind_eq_error failed with failed | ⟨_, _, failed⟩
        · exact absurd ⟨by omega, by omega⟩ (Position.pick_fault failed).2
        · cases failed
      · cases failed

end Image

namespace Load

open Universal (inner? unwrap unwrapFrom)

/-- The input is at fault, and the fault does not name a file yet. -/
def Nameless (fault : Fault) : Prop :=
  (∃ cause, fault = .input none cause) ∨ ∃ cause, fault = .mismatch none cause

theorem checkArchitecture_fault {data : Bytes} {kind : FileKind} {format : Format}
    {description : String} {fault : Fault}
    (failed : checkArchitecture data kind format description = .error fault) : Nameless fault := by
  unfold checkArchitecture at failed
  split at failed
  · cases failed
    exact Or.inl ⟨_, rfl⟩
  · rcases Outcome.bind_eq_error failed with failed | ⟨found, _, failed⟩
    · cases header : Architecture.ofHeader data kind with
      | error cause =>
          rw [header] at failed
          cases failed
          exact Or.inl ⟨_, rfl⟩
      | ok found =>
          rw [header] at failed
          cases failed
    · split at failed
      · cases failed
        exact Or.inr ⟨_, rfl⟩
      · cases failed

/-- An accepted ELF header reaches past its type. -/
theorem checkArchitecture_whole {data : Bytes} {format : Format} {description : String}
    (passed : checkArchitecture data .elf format description = .ok ()) : 18 ≤ data.length := by
  have read : ∃ machine, Architecture.elfMachine? data = some machine := by
    cases machine : Architecture.elfMachine? data with
    | some value => exact ⟨value, rfl⟩
    | none =>
        simp [checkArchitecture, Architecture.ofHeader, machine, Architecture.required, Except.map,
          Except.mapError] at passed
  obtain ⟨machine, found⟩ := read
  obtain ⟨endian, _, found⟩ := Option.bind_eq_some_iff.mp found
  have inside := Bytes.field?_isSome found
  omega

theorem imageFunctions_ok {image : Image} (consistent : image.Consistent) {data : Bytes}
    {kind : FileKind} (format : Format) (whole : kind = .elf → 18 ≤ data.length) :
    ∃ slices, (imageFunctions image kind data format).outcome = .ok slices := by
  cases kind with
  | elf => exact Image.elfFunctions_ok consistent (whole rfl)
  | macho => exact Image.machoFunctions_ok consistent
  | _ => exact ⟨_, rfl⟩

section Objects

variable {data : Bytes} {format : Format} {description : String} {toolkit : Toolkit}

def Consistent (toolkit : Toolkit) : Prop :=
  ∀ image, some image ∈ toolkit.images → image.Consistent

theorem nextImage_cases (consistent : Consistent toolkit) :
    ∃ answer after, (Toolkit.nextImage toolkit).outcome = .ok (answer, after) ∧
      Consistent after ∧ ∀ image, answer = some image → image.Consistent := by
  unfold Toolkit.nextImage
  cases images : toolkit.images with
  | nil =>
      refine ⟨none, toolkit, ?_, consistent, fun _ none' => by cases none'⟩
      simp only [modifyGet, MonadStateOf.modifyGet, StateT.modifyGet, images]
      rfl
  | cons answer rest =>
      refine ⟨answer, { toolkit with images := rest }, ?_, ?_, ?_⟩
      · simp only [modifyGet, MonadStateOf.modifyGet, StateT.modifyGet, images]
        rfl
      · intro image later
        exact consistent image (by simp [images, show some image ∈ rest from later])
      · rintro image rfl
        exact consistent image (by simp [images])

theorem objectFunctions_of_fault {fault : Fault}
    (failed : unwrap format description data = .error fault) :
    ((objectFunctions data format description) toolkit).outcome = .error fault := by
  simp only [objectFunctions, Reading.outcome_bind, Reading.outcome_except, failed,
    Outcome.error_bind]

theorem objectFunctions_endless (endless : ¬ Walk.Ends (inner? format) data) :
    ((objectFunctions data format description) toolkit).outcome = .error (.data .tooDeep) :=
  objectFunctions_of_fault (Universal.unwrapFrom_tooDeep description fun ended =>
    endless ⟨_, ended⟩)

/-- Unwrapping a universal file ends exactly when the slices lead to no file that is a slice of itself.
It then settles after at most as many levels as the file has bytes, however many more are allowed;
otherwise no number of levels is enough, and reading fails at their limit. -/
theorem objectFunctions_nesting (format : Format) (description : String) (data : Bytes) :
    (Walk.Ends (inner? format) data ↔ ∀ count reached,
      Walk.after (inner? format) data count = some reached → inner? format reached ≠ some reached) ∧
    (Walk.Ends (inner? format) data → ∃ levels last outcome, levels ≤ data.length ∧
      Walk.after (inner? format) data levels = some last ∧
      Universal.Settled format description last outcome ∧
      ∀ fuel, levels < fuel → unwrapFrom format description fuel data = outcome) ∧
    (¬ Walk.Ends (inner? format) data →
      (∀ fuel, unwrapFrom format description fuel data = .error (.data .tooDeep)) ∧
      ∀ toolkit, ((objectFunctions data format description) toolkit).outcome =
        .error (.data .tooDeep)) := by
  refine ⟨Universal.inner?_ends_iff, Universal.unwrapFrom_settles description, ?_⟩
  intro endless
  refine ⟨?_, fun _ => objectFunctions_endless endless⟩
  exact fun fuel => Universal.unwrapFrom_tooDeep description fun ended => endless ⟨fuel, ended⟩

/-- The only slice of a universal file may be the file itself. -/
theorem objectFunctions_selfContained :
    ¬ Walk.Ends (inner? .x86) Universal.selfContained ∧
    ((objectFunctions Universal.selfContained .x86 "the file") {}).outcome =
      .error (.data .tooDeep) := by
  have endless : ¬ Walk.Ends (inner? .x86) Universal.selfContained :=
    Walk.not_ends_of_return Nat.zero_lt_one rfl Universal.selfContained_inner
  exact ⟨endless, objectFunctions_endless endless⟩

theorem objectFunctions_cases (data : Bytes) (format : Format) (description : String)
    (consistent : Consistent toolkit) :
    (∃ slices after, ((objectFunctions data format description) toolkit).outcome =
      .ok (slices, after) ∧ Consistent after) ∨
    ∃ fault, ((objectFunctions data format description) toolkit).outcome = .error fault ∧
      (Nameless fault ∨ unwrap format description data = .error fault) := by
  cases unwrapped : unwrap format description data with
  | error fault => exact Or.inr ⟨fault, objectFunctions_of_fault unwrapped, Or.inr rfl⟩
  | ok inner =>
      simp only [objectFunctions, Reading.outcome_bind, Reading.outcome_except, unwrapped,
        Outcome.ok_bind]
      cases checked : checkArchitecture inner (FileKind.ofBytes inner) format description with
      | error fault => exact Or.inr ⟨fault, rfl, Or.inl (checkArchitecture_fault checked)⟩
      | ok _ =>
          obtain ⟨answer, after, answered, consistent', found⟩ := nextImage_cases consistent
          simp only [Outcome.ok_bind, answered]
          cases answer with
          | none => exact Or.inr ⟨_, rfl, Or.inl (Or.inl ⟨_, rfl⟩)⟩
          | some image =>
              have whole : FileKind.ofBytes inner = .elf → 18 ≤ inner.length := by
                intro isElf
                rw [isElf] at checked
                exact checkArchitecture_whole checked
              obtain ⟨slices, read⟩ := imageFunctions_ok (found image rfl) format whole
              refine Or.inl ⟨slices, after, ?_, consistent'⟩
              simp only [Reading.outcome_logged, read, Outcome.ok_bind]

theorem memberFunctions_cases (format : Format) (consistent : Consistent toolkit) (found : Archive.Member) :
    (∃ slices after, ((memberFunctions format found) toolkit).outcome = .ok (slices, after) ∧
      Consistent after) ∨
    ∃ fault, ((memberFunctions format found) toolkit).outcome = .error fault ∧
      (Nameless fault ∨
        unwrap format s!"archive member {found.name}" found.content = .error fault) := by
  unfold memberFunctions
  split
  · exact Or.inl ⟨[], toolkit, rfl, consistent⟩
  · rw [Reading.outcome_bind]
    rcases objectFunctions_cases found.content format s!"archive member {found.name}"
        consistent with
      ⟨slices, after, read, consistent'⟩ | ⟨fault, failed, cause⟩
    · rw [read, Outcome.ok_bind]
      exact Or.inl ⟨_, after, rfl, consistent'⟩
    · rw [failed, Outcome.error_bind]
      exact Or.inr ⟨fault, rfl, cause⟩

/-- A run over members fails with a fault among them, or with that of a visit. -/
theorem overMembers_cases (format : Format) (items : List (Except Fault Archive.Member)) :
    ∀ {toolkit : Toolkit}, Consistent toolkit →
    (∃ slices after, ((overMembers (memberFunctions format) items) toolkit).outcome =
      .ok (slices, after)) ∨
    ∃ fault, ((overMembers (memberFunctions format) items) toolkit).outcome = .error fault ∧
      (Nameless fault ∨ .error fault ∈ items ∨ ∃ found, .ok found ∈ items ∧
        unwrap format s!"archive member {found.name}" found.content = .error fault) := by
  induction items with
  | nil => exact fun {toolkit} _ => Or.inl ⟨[], toolkit, rfl⟩
  | cons item rest ih =>
      intro toolkit consistent
      cases item with
      | error fault => exact Or.inr ⟨fault, rfl, Or.inr (Or.inl List.mem_cons_self)⟩
      | ok found =>
          simp only [overMembers, Reading.outcome_bind]
          rcases memberFunctions_cases format consistent found with
            ⟨slices, after, read, consistent'⟩ | ⟨fault, failed, cause⟩
          · rw [read, Outcome.ok_bind]
            rcases ih consistent' with ⟨others, final, read'⟩ | ⟨fault, failed, cause⟩
            · rw [read', Outcome.ok_bind]
              exact Or.inl ⟨_, final, rfl⟩
            · rw [failed, Outcome.error_bind]
              refine Or.inr ⟨fault, rfl, cause.imp_right ?_⟩
              rintro (inside | ⟨other, isOther, unwrapped⟩)
              · exact Or.inl (List.mem_cons_of_mem _ inside)
              · exact Or.inr ⟨other, List.mem_cons_of_mem _ isOther, unwrapped⟩
          · rw [failed, Outcome.error_bind]
            exact Or.inr ⟨fault, rfl, cause.imp_right fun unwrapped =>
              Or.inr ⟨found, List.mem_cons_self, unwrapped⟩⟩

/-- Where reading the content of a file comes upon a defect that it has no diagnosis for: in the object
that it is, in the headers of the archive that it is, or in a member of that archive. -/
inductive Breaks (format : Format) (data : Bytes) : DataFault → Prop
  | object {cause} : FileKind.ofBytes data ≠ .archive → Universal.Breaks format data cause →
      Breaks format data cause
  | header {cause} : FileKind.ofBytes data = .archive → Archive.Breaks data cause →
      Breaks format data cause
  | member {cause found} : FileKind.ofBytes data = .archive → .ok found ∈ Archive.members data →
      Universal.Breaks format found.content cause → Breaks format data cause

theorem unwrap_fault {fault : Fault} (failed : unwrap format description data = .error fault) :
    Nameless fault ∨ ∃ cause, fault = .data cause ∧ Universal.Breaks format data cause := by
  rcases Universal.unwrap_fault description failed with rfl | breaks
  · exact Or.inl (Or.inr ⟨_, rfl⟩)
  · exact Or.inr breaks

theorem members_fault {fault : Fault} (member : .error fault ∈ Archive.members data) :
    Nameless fault ∨ ∃ cause, fault = .data cause ∧ Archive.Breaks data cause := by
  rcases Archive.mem_members_error member with ⟨cause, rfl⟩ | breaks
  · exact Or.inl (Or.inl ⟨cause, rfl⟩)
  · exact Or.inr breaks

theorem contentFunctions_object (notArchive : FileKind.ofBytes data ≠ .archive)
    (notBitcode : FileKind.ofBytes data ≠ .bitcode) :
    contentFunctions data format = objectFunctions data format "the file" := by
  unfold contentFunctions
  cases kind : FileKind.ofBytes data <;> simp_all

theorem contentFunctions_fault (consistent : Consistent toolkit) {fault : Fault}
    (failed : ((contentFunctions data format) toolkit).outcome = .error fault) :
    Nameless fault ∨ ∃ cause, fault = .data cause ∧ Breaks format data cause := by
  have object : ∀ description, FileKind.ofBytes data ≠ .archive →
      ((objectFunctions data format description) toolkit).outcome = .error fault →
      Nameless fault ∨ ∃ cause, fault = .data cause ∧ Breaks format data cause := by
    intro description notArchive failed
    rcases objectFunctions_cases data format description consistent with
      ⟨slices, after, read, _⟩ | ⟨cause, failed', nameless | unwrapped⟩
    · rw [failed] at read
      cases read
    · rw [failed, Except.error.injEq] at failed'
      exact Or.inl (failed' ▸ nameless)
    · rw [failed, Except.error.injEq] at failed'
      rw [← failed'] at unwrapped
      rcases unwrap_fault unwrapped with nameless | ⟨cause, isCause, breaks⟩
      · exact Or.inl nameless
      · exact Or.inr ⟨cause, isCause, .object notArchive breaks⟩
  by_cases isArchive : FileKind.ofBytes data = .archive
  · simp only [contentFunctions, isArchive] at failed
    rcases overMembers_cases format (Archive.members data) consistent with
      ⟨slices, after, read⟩ | ⟨cause, failed', found⟩
    · rw [failed] at read
      cases read
    · rw [failed, Except.error.injEq] at failed'
      subst failed'
      rcases found with nameless | inside | ⟨member, isMember, unwrapped⟩
      · exact Or.inl nameless
      · rcases members_fault inside with nameless | ⟨cause, isCause, breaks⟩
        · exact Or.inl nameless
        · exact Or.inr ⟨cause, isCause, .header isArchive breaks⟩
      · rcases unwrap_fault unwrapped with nameless | ⟨cause, isCause, breaks⟩
        · exact Or.inl nameless
        · exact Or.inr ⟨cause, isCause, .member isArchive isMember breaks⟩
  · by_cases isBitcode : FileKind.ofBytes data = .bitcode
    · simp only [contentFunctions, isBitcode, Reading.outcome_throw, Except.error.injEq] at failed
      exact Or.inl (Or.inr ⟨_, failed.symm⟩)
    · rw [contentFunctions_object isArchive isBitcode] at failed
      exact object _ isArchive failed

end Objects

section Files

variable {format : Format} {toolkit : Toolkit} {data : Bytes}

theorem located_outcome {β : Type} (path : Path) (run : Reading β) :
    ((located path run) toolkit).outcome =
      (run toolkit).outcome.mapError (Fault.locate path.text) := by
  change (Logged.recover (run toolkit) _).outcome = _
  unfold Logged.recover
  cases outcome : (run toolkit).outcome with
  | error fault => rfl
  | ok result => exact outcome

theorem nativeFunctions_outcome {files : Files} {path : Path}
    (readable : files.read path = .ok data) :
    ((nativeFunctions files path format) toolkit).outcome =
      ((contentFunctions data format) toolkit).outcome.mapError (Fault.locate path.text) := by
  have input : readInput files path = .ok data := by rw [readInput, readable, Except.mapError]
  simp only [nativeFunctions, Reading.outcome_bind, Reading.outcome_except, input, Outcome.ok_bind,
    located_outcome]

theorem memberFunctions_of_breaks {found : Archive.Member} {cause : DataFault}
    (breaks : Universal.Breaks format found.content cause) :
    ((memberFunctions format found) toolkit).outcome = .error (.data cause) := by
  have known : FileKind.ofBytes found.content ≠ .unknown := by
    rw [breaks.universal]
    decide
  rw [memberFunctions, if_neg known, Reading.outcome_bind,
    objectFunctions_of_fault (Universal.unwrap_of_breaks _ breaks), Outcome.error_bind]

theorem overMembers_fails {items : List (Except Fault Archive.Member)}
    {item : Except Fault Archive.Member} (inside : item ∈ items)
    (stops : ∀ found, item = .ok found → ∀ toolkit, ∃ fault,
      ((memberFunctions format found) toolkit).outcome = .error fault) :
    ∀ toolkit, ∃ fault, ((overMembers (memberFunctions format) items) toolkit).outcome =
      .error fault := by
  induction items with
  | nil => cases inside
  | cons first rest ih =>
      intro toolkit
      cases first with
      | error fault => exact ⟨fault, rfl⟩
      | ok found =>
          rw [overMembers, Reading.outcome_bind]
          cases visited : ((memberFunctions format found) toolkit).outcome with
          | error fault => exact ⟨fault, rfl⟩
          | ok result =>
              -- the visit succeeded, so the item that stops the run is a later one
              rcases List.mem_cons.mp inside with rfl | inside
              · obtain ⟨fault, failed⟩ := stops found rfl toolkit
                rw [visited] at failed
                cases failed
              · obtain ⟨fault, failed⟩ := ih inside result.2
                refine ⟨fault, ?_⟩
                rw [Outcome.ok_bind, Reading.outcome_bind, failed, Outcome.error_bind]

theorem contentFunctions_fails {cause : DataFault} (isArchive : FileKind.ofBytes data = .archive)
    (breaks : Breaks format data cause) :
    ∃ fault, ((contentFunctions data format) toolkit).outcome = .error fault := by
  simp only [contentFunctions, isArchive]
  cases breaks with
  | object notArchive _ => exact absurd isArchive notArchive
  | header _ breaks =>
      exact overMembers_fails (Archive.mem_members_of_breaks breaks) (fun _ isOk => by cases isOk) _
  | member _ isMember breaks =>
      refine overMembers_fails isMember ?_ _
      intro found isFound toolkit
      cases isFound
      exact ⟨_, memberFunctions_of_breaks breaks⟩

theorem contentFunctions_of_breaks {cause : DataFault} (notArchive : FileKind.ofBytes data ≠ .archive)
    (breaks : Breaks format data cause) :
    ((contentFunctions data format) toolkit).outcome = .error (.data cause) := by
  cases breaks with
  | object _ breaks =>
      have notBitcode : FileKind.ofBytes data ≠ .bitcode := by
        rw [breaks.universal]
        decide
      rw [contentFunctions_object notArchive notBitcode]
      exact objectFunctions_of_fault (Universal.unwrap_of_breaks _ breaks)
  | header isArchive _ => exact absurd isArchive notArchive
  | member isArchive _ _ => exact absurd isArchive notArchive

/-- Reading a file fails with a problem of the input that names the file, or at a defect of the tables
that lead into its objects. Every such defect makes it fail, in a file that is no archive with nothing
but the defect. -/
theorem nativeFunctions_faults (files : Files) (path : Path) (format : Format) (data : Bytes)
    (toolkit : Toolkit) (readable : files.read path = .ok data) (consistent : Consistent toolkit) :
    (∀ fault, ((nativeFunctions files path format) toolkit).outcome = .error fault →
      (∃ cause, fault = .input (some path.text) cause) ∨
      (∃ cause, fault = .mismatch (some path.text) cause) ∨
      ∃ cause, fault = .data cause ∧ Breaks format data cause) ∧
    (∀ cause, Breaks format data cause →
      ∃ fault, ((nativeFunctions files path format) toolkit).outcome = .error fault) ∧
    (FileKind.ofBytes data ≠ .archive → ∀ cause, Breaks format data cause →
      ((nativeFunctions files path format) toolkit).outcome = .error (.data cause)) := by
  rw [nativeFunctions_outcome readable]
  refine ⟨?_, ?_, ?_⟩
  · intro fault failed
    cases outcome : ((contentFunctions data format) toolkit).outcome with
    | ok result =>
        rw [outcome] at failed
        cases failed
    | error inner =>
        rw [outcome, Except.mapError, Except.error.injEq] at failed
        subst failed
        rcases contentFunctions_fault consistent outcome with
          (⟨cause, rfl⟩ | ⟨cause, rfl⟩) | ⟨cause, rfl, breaks⟩
        · exact Or.inl ⟨cause, rfl⟩
        · exact Or.inr (Or.inl ⟨cause, rfl⟩)
        · exact Or.inr (Or.inr ⟨cause, rfl, breaks⟩)
  · intro cause breaks
    by_cases isArchive : FileKind.ofBytes data = .archive
    · obtain ⟨fault, failed⟩ := contentFunctions_fails isArchive breaks
      exact ⟨_, by rw [failed]; rfl⟩
    · exact ⟨_, by rw [contentFunctions_of_breaks isArchive breaks]; rfl⟩
  · intro notArchive cause breaks
    rw [contentFunctions_of_breaks notArchive breaks]
    rfl

def oneFile (content : Bytes) : Files :=
  { entries := [(["f"], .file content)] }

theorem oneFile_read (content : Bytes) : (oneFile content).read (.ofText "f") = .ok content := by
  -- the bytes of a text are found by a loop that `rfl` does not open by itself
  with_unfolding_all rfl

/-- The answers of a reader that parses nothing. -/
def noAnswers : Toolkit := {}

theorem noAnswers_consistent : Consistent noAnswers := by
  intro image answered
  cases answered

theorem entryless_breaks : Breaks .x86 Universal.entryless .cutShort := by
  have universal : FileKind.ofBytes Universal.entryless = .fatMacho := by decide
  have short : Universal.CutShort .x86 Universal.entryless :=
    ⟨1, 0, by decide, by decide, by decide, fun earlier before => by omega⟩
  have noNesting : 0 < Universal.maxNesting := by decide
  exact .object (by rw [universal]; decide) (.cutShort noNesting rfl universal short)

theorem nativeFunctions_faults_entryless :
    Consistent noAnswers ∧ Breaks .x86 Universal.entryless .cutShort ∧
    ((nativeFunctions (oneFile Universal.entryless) (.ofText "f") .x86) noAnswers).outcome =
      .error (.data .cutShort) := by
  have faults :=
    nativeFunctions_faults _ _ .x86 _ _ (oneFile_read Universal.entryless) noAnswers_consistent
  exact ⟨noAnswers_consistent, entryless_breaks, faults.2.2 (by decide) _ entryless_breaks⟩

/-- An archive whose only member has a name of no length. -/
def lengthlessName : Bytes :=
  Magic.archive ++ Archive.headerBytes "#1/xx" "0"

theorem lengthlessName_kind : FileKind.ofBytes lengthlessName = .archive := by
  decide

theorem lengthlessName_members : Archive.members lengthlessName = [.error (.data .unreadable)] := by
  decide

/-- The table of slices of a universal file may be cut short, and the length of a name in an archive may
be no number; neither is reported as a problem of the input. -/
theorem nativeFunctions_undiagnosed :
    ((nativeFunctions (oneFile Universal.entryless) (.ofText "f") .x86) noAnswers).outcome =
      .error (.data .cutShort) ∧
    ((nativeFunctions (oneFile lengthlessName) (.ofText "f") .x86) noAnswers).outcome =
      .error (.data .unreadable) := by
  constructor
  · rw [nativeFunctions_outcome (oneFile_read _),
      contentFunctions_of_breaks (by decide) entryless_breaks]
    rfl
  · rw [nativeFunctions_outcome (oneFile_read _)]
    simp only [contentFunctions, lengthlessName_kind, lengthlessName_members, overMembers,
      Reading.outcome_throw]
    rfl

end Files

end Load

end FlowAlign
