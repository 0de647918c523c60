import FlowAlign.Load.Program
import FlowAlign.Proofs.Compare.Isolation
import FlowAlign.Proofs.Load.Native
import FlowAlign.Proofs.Program

/-!
Which faults blame the input. What is wrong with a file is found out while the file is read. Later on,
decoding a function or comparing two of them may fail as well, but never with a problem of the input.
-/

namespace FlowAlign

theorem Fault.isInputProblem_of_isInternal {fault : Fault} (internal : fault.isInternal = true) :
    fault.isInputProblem = false := by
  cases fault <;> first | rfl | cases internal

namespace Logged

variable {β γ : Type}

/-- A computation whose faults, if it has any, are no problems of the input. -/
def Blameless (run : Logged Fault β) : Prop :=
  ∀ fault, run.outcome = .error fault → fault.isInputProblem = false

namespace Blameless

theorem of_ok {run : Logged Fault β} {value : β} (succeeded : run.outcome = .ok value) :
    run.Blameless := by
  intro fault failed
  rw [succeeded] at failed
  cases failed

theorem pure (value : β) : (pure value : Logged Fault β).Blameless :=
  of_ok rfl

theorem bind {first : Logged Fault β} {next : β → Logged Fault γ} (blameless : first.Blameless)
    (blameless' : ∀ value, (next value).Blameless) : (first >>= next).Blameless := by
  intro fault failed
  rw [Logged.outcome_bind] at failed
  rcases Outcome.bind_eq_error failed with failed | ⟨value, _, failed⟩
  · exact blameless fault failed
  · exact blameless' value fault failed

theorem mapM {run : β → Logged Fault γ} (each : ∀ item, (run item).Blameless) (items : List β) :
    (items.mapM run).Blameless := by
  intro fault failed
  rw [Logged.outcome_mapM] at failed
  obtain ⟨item, _, failed⟩ := Outcome.mapM_error failed
  exact each item fault failed

end Blameless

end Logged

namespace Symbol

/-- Only an escape beyond all code points makes a name unreadable. -/
theorem decodeNumeric_fault {skip : Nat} {text : List Char} {fault : Fault}
    (failed : decodeNumeric skip text = .error fault) : fault = .data .unreadable := by
  fun_induction decodeNumeric skip text with
  | case1 => cases failed
  | case2 skip char rest ih => exact ih failed
  | case3 rest point digits escape valid ih => exact ih (Outcome.map_eq_error failed)
  | case4 rest point digits escape invalid => exact (Except.error.inj failed).symm
  | case5 rest noEscape ih => exact ih (Outcome.map_eq_error failed)
  | case6 char rest notDollar ih => exact ih (Outcome.map_eq_error failed)

theorem demangle_blameless (demangler : Demangler) (name : String) :
    (demangle demangler name).Blameless := by
  simp only [demangle]
  split
  · exact .pure _
  · split
    · exact .bind (.of_ok rfl) fun _ => .pure _
    · exact .pure _
    · split
      · intro fault failed
        rw [Logged.outcome_ofExcept, cleanRust] at failed
        rcases Outcome.bind_eq_error failed with failed | ⟨_, _, failed⟩
        · rw [decodeNumeric_fault failed]
          rfl
        · cases failed
      · exact .pure _

end Symbol

namespace FunctionSlice

open Machine

variable (slice : FunctionSlice) (demangler : Symbol.Demangler)

theorem callee_blameless (address size : Int) (control : Control) :
    (slice.callee demangler address size control).Blameless := by
  unfold callee
  split
  · split
    · exact .bind (Symbol.demangle_blameless demangler _) fun _ => .pure _
    · exact .pure _
  · exact .pure _

theorem tableTargets_blameless (format : Format) (decoded : Decoded) (earlier : List Decoded) :
    (slice.tableTargets format decoded earlier).Blameless := by
  unfold tableTargets
  split
  · split
    · exact .pure _
    · simp only
      split
      · exact .bind (.of_ok rfl) fun _ => .pure _
      · exact .pure _
  · exact .pure _

theorem resolve_blameless (format : Format) (decoded : Decoded) (earlier : List Decoded)
    (control : Control) : (slice.resolve format decoded earlier control).Blameless := by
  unfold resolve
  split
  · exact .pure _
  · split
    · refine .bind (slice.tableTargets_blameless format decoded earlier) fun targets => ?_
      split
      · exact .pure _
      · exact .pure _
    · exact .pure _

theorem control_blameless (arch : Arch) (decoded : Decoded) :
    (liftM (Control.of arch decoded) : Logged Fault Control).Blameless := by
  intro fault failed
  rw [Logged.outcome_liftM] at failed
  unfold Control.of at failed
  split at failed
  · cases failed
  · split at failed
    · unfold Control.x86 at failed
      split at failed
      · cases failed
        rfl
      · cases failed
    · cases failed
    · cases failed

theorem machineInstruction_blameless (format : Format) (arch : Arch) (earlier : List Decoded)
    (decoded : Decoded) :
    (slice.machineInstruction demangler format arch earlier decoded).Blameless := by
  refine .bind (control_blameless arch decoded) fun control => ?_
  split
  · exact .pure _
  · refine .bind (slice.callee_blameless demangler _ _ control) fun callee => ?_
    exact .bind (slice.resolve_blameless format decoded earlier control) fun _ => .pure _

theorem machineInstructions_blameless (format : Format) (arch : Arch) (instructions : List Decoded) :
    ∀ earlier, (slice.machineInstructions demangler format arch earlier instructions).Blameless := by
  induction instructions with
  | nil => exact fun _ => .pure _
  | cons decoded rest ih =>
      intro earlier
      refine .bind (slice.machineInstruction_blameless demangler format arch earlier decoded)
        fun first => ?_
      exact .bind (ih _) fun others => .pure _

theorem avrInstruction_blameless (found : Instruction) :
    (slice.avrInstruction demangler found).Blameless := by
  unfold avrInstruction
  split
  · exact .pure _
  · split
    · exact .pure _
    · refine .bind (slice.callee_blameless demangler _ _ _) fun callee => ?_
      split
      · exact .pure _
      · exact .pure _

/-- Instructions of native code are decoded without blame. -/
theorem stream_blameless (decoder : Decoder) (format : Format) :
    (slice.stream demangler decoder format).Blameless := by
  unfold stream
  split
  · exact .mapM (slice.avrInstruction_blameless demangler) _
  · refine .bind ?_ fun arch => slice.machineInstructions_blameless demangler format arch _ []
    intro fault failed
    rw [Logged.outcome_liftM] at failed
    cases format with
    | llvmBitcode | avr =>
        cases failed
        rfl
    | arm64 | arm32 | x86 | x64 => cases failed

end FunctionSlice

namespace Reading

variable {β γ : Type} {good : β → Prop}

/-- A reading all of whose results have a property. -/
def Yields (good : β → Prop) (run : Reading β) : Prop :=
  ∀ toolkit result, (run toolkit).outcome = .ok result → good result.1

namespace Yields

theorem pure {value : β} (isGood : good value) : Yields good (pure value) := by
  intro toolkit result read
  rw [← Except.ok.inj read]
  exact isGood

theorem throw (fault : Fault) : Yields good (throw fault) := by
  intro toolkit result read
  cases read

theorem bind {first : Reading γ} {next : γ → Reading β} {between : γ → Prop}
    (yields : Yields between first) (yields' : ∀ value, between value → Yields good (next value)) :
    Yields good (first >>= next) := by
  intro toolkit result read
  rw [outcome_bind] at read
  obtain ⟨value, isFirst, read⟩ := Outcome.bind_eq_ok read
  exact yields' value.1 (yields toolkit value isFirst) value.2 result read

theorem of_next {first : Reading γ} {next : γ → Reading β}
    (yields : ∀ value, Yields good (next value)) : Yields good (first >>= next) :=
  .bind (show Yields (fun _ => True) first from fun _ _ _ => trivial) fun value _ => yields value

theorem logged {run : Logged Fault β} (each : ∀ value, run.outcome = .ok value → good value) :
    Yields good (liftM run) := by
  intro toolkit result read
  rw [outcome_logged] at read
  obtain ⟨value, found, same⟩ := Outcome.bind_eq_ok read
  rw [← Except.ok.inj same]
  exact each value found

theorem located {run : Reading β} (yields : Yields good run) (path : Path) :
    Yields good (Load.located path run) := by
  intro toolkit result read
  rw [Load.located_outcome] at read
  cases outcome : (run toolkit).outcome with
  | error fault =>
      rw [outcome] at read
      cases read
  | ok found =>
      rw [outcome] at read
      rw [← Except.ok.inj read]
      exact yields toolkit found outcome

end Yields

end Reading

open Reading (Yields)

/-- Functions that are decoded without blame, if at all. -/
def RawFunction.Blameless (raws : List RawFunction) : Prop :=
  ∀ raw ∈ raws, raw.stream.Blameless

namespace RawFunction.Blameless

theorem nil : Blameless [] :=
  fun _ member => by cases member

theorem append {raws others : List RawFunction} (blameless : Blameless raws)
    (blameless' : Blameless others) : Blameless (raws ++ others) := by
  intro raw member
  rcases List.mem_append.mp member with earlier | later
  · exact blameless raw earlier
  · exact blameless' raw later

end RawFunction.Blameless

open RawFunction (Blameless)

namespace Load

theorem rawFunction_yields (function : Bitcode.FunctionValue) (address : Int) :
    Yields (fun raw => raw.stream.Blameless) (Bitcode.rawFunction function address) :=
  .of_next fun _ => .pure (.pure _)

theorem definitionsFrom_yields (functions : List Bitcode.FunctionValue) :
    ∀ index, Yields Blameless (definitionsFrom index functions) := by
  induction functions with
  | nil => exact fun _ => .pure .nil
  | cons function rest ih =>
      intro index
      unfold definitionsFrom
      split
      · exact ih index
      · refine .bind (rawFunction_yields function index) fun first isFirst => ?_
        refine .bind (ih (index + 1)) fun others areOthers => .pure ?_
        exact List.forall_mem_cons.mpr ⟨isFirst, areOthers⟩

theorem moduleFunctions_yields (description : String) :
    Yields Blameless (moduleFunctions description) := by
  refine .of_next fun parsed => ?_
  split
  · exact .throw _
  · exact .bind (definitionsFrom_yields _ 0) fun found blameless => .of_next fun _ => .pure blameless

theorem memberModule_yields (found : Archive.Member) : Yields Blameless (memberModule found) := by
  unfold memberModule
  split
  · exact .of_next fun _ => .pure .nil
  · exact moduleFunctions_yields _

theorem overMembers_yields {visit : Archive.Member → Reading (List RawFunction)}
    (each : ∀ found, Yields Blameless (visit found)) (items : List (Except Fault Archive.Member)) :
    Yields Blameless (overMembers visit items) := by
  induction items with
  | nil => exact .pure .nil
  | cons item rest ih =>
      cases item with
      | error fault => exact .throw fault
      | ok found =>
          exact .bind (each found) fun _ blameless => .bind ih fun _ blameless' =>
            .pure (blameless.append blameless')

theorem contentModules_yields (data : Bytes) : Yields Blameless (contentModules data) := by
  unfold contentModules
  split
  · exact moduleFunctions_yields _
  · exact overMembers_yields memberModule_yields _
  · exact .throw _
  · exact .throw _

theorem reread_yields {functions : List RawFunction} (blameless : Blameless functions) :
    Yields Blameless (reread functions) := by
  intro toolkit result read
  cases read
  intro raw member
  obtain ⟨origin, isOrigin, rfl⟩ := List.mem_map.mp member
  exact .bind (blameless origin isOrigin) fun _ => .pure _

/-- Whatever is read from a file is decoded without blaming the file. -/
theorem functions_yields (files : Files) (path : Path) (format : Format) :
    Yields Blameless (functions files path format) := by
  unfold functions
  split
  · exact .of_next fun data => (contentModules_yields data).located path
  · refine .of_next fun slices => .of_next fun toolkit => reread_yields ?_
    intro raw member
    obtain ⟨slice, _, rfl⟩ := List.mem_map.mp member
    exact slice.stream_blameless _ _ _

end Load

/-- A program all of whose functions are decoded without blame. -/
def Program.Blameless (program : Program) : Prop :=
  ∀ entry ∈ program.functions, entry.2.stream.Blameless

theorem Program.load_yields (demangler : Symbol.Demangler) (name : String) (format : Format)
    {raws : List RawFunction} (blameless : RawFunction.Blameless raws) :
    Yields Program.Blameless (liftM (load demangler (.empty name format) raws)) := by
  refine .logged fun program loaded entry member => ?_
  rcases load_functions loaded entry member with earlier | ⟨_, raw, isRaw, same⟩
  · cases earlier
  · rw [same]
    exact blameless raw isRaw

theorem Load.program_yields (files : Files) (path : Path) (format : Format) :
    Yields Program.Blameless (program files path format) :=
  .bind (functions_yields files path format) fun _ blameless =>
    .of_next fun _ => Program.load_yields _ _ _ blameless

theorem Function.readable_of_canonicalize {function : Function} {graph : FlowGraph}
    (canonical : function.canonicalize.outcome = .ok graph) : function.Readable := by
  rw [canonicalize, Logged.outcome_bind] at canonical
  obtain ⟨body, found, _⟩ := Outcome.bind_eq_ok canonical
  rw [Function.body, Logged.outcome_bind] at found
  obtain ⟨instructions, decoded, _⟩ := Outcome.bind_eq_ok found
  exact ⟨instructions, decoded⟩

theorem Function.canonicalize_blameless {function : Function} {name : String}
    (hasName : function.name.outcome = .ok name) (blameless : function.stream.Blameless) :
    function.canonicalize.Blameless := by
  intro fault failed
  cases decoded : function.stream.outcome with
  | ok instructions =>
      have readable : function.Readable := ⟨instructions, decoded⟩
      exact Fault.isInputProblem_of_isInternal (readable.canonicalize_fault hasName failed)
  | error cause =>
      have stopped : function.canonicalize.outcome = .error cause := by
        simp only [canonicalize, Function.body, Logged.outcome_bind, decoded, Outcome.error_bind]
      obtain rfl : cause = fault := by simpa [stopped] using failed
      exact blameless cause decoded

namespace Compare

variable {α : Type} [Quantity α]

section Functions

variable {options : Options α} {first second : Function} {name name' : String}
  (hasName : first.name.outcome = .ok name) (hasName' : second.name.outcome = .ok name')
  (blameless : first.stream.Blameless) (blameless' : second.stream.Blameless)

include hasName hasName' blameless blameless'

theorem raises_blameless {fault : Fault} (raises : Raises options first second fault) :
    fault.isInputProblem = false := by
  cases raises with
  | primary failed => exact Function.canonicalize_blameless hasName blameless fault failed
  | secondary _ failed => exact Function.canonicalize_blameless hasName' blameless' fault failed
  | alignment canonical canonical' failed =>
      exact Fault.isInputProblem_of_isInternal (raises_internal options hasName hasName'
        (Function.readable_of_canonicalize canonical)
        (Function.readable_of_canonicalize canonical') (.alignment canonical canonical' failed))

theorem functions_blameless : (functions options first second).Blameless := by
  cases aligned : (alignFunctions options first second).outcome with
  | ok result =>
      obtain ⟨graph, other, canonical, canonical', _⟩ := alignFunctions_ok aligned
      obtain ⟨diff, compared, _⟩ := functions_settled options hasName hasName'
        (Function.readable_of_canonicalize canonical) (Function.readable_of_canonicalize canonical')
      exact .of_ok compared
  | error cause =>
      have raises := alignFunctions_error_iff.mp aligned
      intro fault failed
      by_cases internal : cause.isInternal = true
      · -- a fault from within is part of the result
        simp only [functions, Logged.outcome_bind, Logged.outcome_attempt, Outcome.ok_bind, aligned,
          internal, if_true, hasName, hasName', Logged.outcome_note, Logged.outcome_pure] at failed
        cases failed
      · simp only [functions, Logged.outcome_bind, Logged.outcome_attempt, Outcome.ok_bind, aligned,
          internal] at failed
        obtain rfl : cause = fault := Except.error.inj failed
        exact raises_blameless hasName hasName' blameless blameless' raises

end Functions

/-- What stops a comparison is no problem of the input. -/
theorem Stops.blameless {options : Options α} {pairs : List (Function × Function)} {fault : Fault}
    (stops : Stops options pairs fault)
    (named : ∀ pair ∈ pairs, ∃ name name', pair.1.name.outcome = .ok name ∧
      pair.2.name.outcome = .ok name')
    (blameless : ∀ pair ∈ pairs, pair.1.stream.Blameless ∧ pair.2.stream.Blameless) :
    fault.isInputProblem = false := by
  induction stops with
  | here failed =>
      obtain ⟨name, name', hasName, hasName'⟩ := named _ List.mem_cons_self
      obtain ⟨isFirst, isSecond⟩ := blameless _ List.mem_cons_self
      exact functions_blameless hasName hasName' isFirst isSecond _ failed
  | later _ _ ih =>
      exact ih (fun pair member => named pair (List.mem_cons_of_mem _ member))
        fun pair member => blameless pair (List.mem_cons_of_mem _ member)

/-- Either all pairs have results, or a first one has none. -/
theorem settled_or_stops (options : Options α) (pairs : List (Function × Function)) :
    (∃ diffs, List.Forall₂ (fun pair diff =>
      (functions options pair.1 pair.2).outcome = .ok diff) pairs diffs) ∨
    ∃ fault, Stops options pairs fault := by
  induction pairs with
  | nil => exact Or.inl ⟨[], .nil⟩
  | cons pair rest ih =>
      cases compared : (functions options pair.1 pair.2).outcome with
      | error fault => exact Or.inr ⟨fault, .here compared⟩
      | ok diff =>
          rcases ih with ⟨diffs, settled⟩ | ⟨fault, stops⟩
          · exact Or.inl ⟨diff :: diffs, .cons compared settled⟩
          · exact Or.inr ⟨fault, .later compared stops⟩

end Compare

end FlowAlign
