import Mathlib.Data.List.Nodup
import FlowAlign.Program
import FlowAlign.Proofs.Outcome

/-!
What a program holds once its functions are entered. Under every readable name stands the first
function of the list with that name, whatever comes behind it, and no name occurs twice.
-/

namespace FlowAlign

namespace RawFunction

/-- Whether a function has a readable name. -/
def isNamed (demangler : Symbol.Demangler) (name : String) (raw : RawFunction) : Bool :=
  decide ((Symbol.demangle demangler raw.name).outcome.toOption = some name)

theorem isNamed_iff {demangler : Symbol.Demangler} {name : String} {raw : RawFunction} :
    raw.isNamed demangler name = true ↔ (Symbol.demangle demangler raw.name).outcome = .ok name := by
  simp only [isNamed, decide_eq_true_eq]
  cases (Symbol.demangle demangler raw.name).outcome with
  | error fault => simp [Except.toOption]
  | ok other => simp [Except.toOption]

end RawFunction

/-- Whether a function of a list has a readable name. -/
def Named (demangler : Symbol.Demangler) (raws : List RawFunction) (name : String) : Prop :=
  ∃ raw ∈ raws, (Symbol.demangle demangler raw.name).outcome = .ok name

namespace Program

theorem mem_keys {program : Program} {key : String} :
    key ∈ program.keys ↔ ∃ function, program.get? key = some function := by
  rw [← Option.isSome_iff_exists, ← Option.ne_none_iff_isSome, get?, ne_eq,
    List.lookup_eq_none_iff]
  simp [keys]

theorem contains_iff {program : Program} {key : String} :
    program.contains key = true ↔ key ∈ program.keys := by
  rw [contains, Option.isSome_iff_exists, mem_keys]

theorem mem_of_find? {program : Program} {wanted : String} {function : Function}
    (found : program.find? wanted = some function) : ∃ key, (key, function) ∈ program.functions := by
  rw [find?] at found
  split at found
  · rename_i known isKnown
    obtain rfl : known = function := Option.some.inj found
    obtain ⟨_, _, split, _⟩ := List.lookup_eq_some_iff.mp isKnown
    exact ⟨wanted, by rw [split]; simp⟩
  · obtain ⟨entry, isFound, rfl⟩ := Option.map_eq_some_iff.mp found
    exact ⟨entry.1, List.mem_of_find?_eq_some isFound⟩

section Set

variable {program : Program} {key : String} (free : program.get? key = none) (function : Function)

include free

theorem set_of_free : program.set key function =
    { program with functions := program.functions ++ [(key, function)] } := by
  simp [set, contains, free]

theorem get?_set (other : String) :
    (program.set key function).get? other =
      (program.get? other).or (if other = key then some function else none) := by
  rw [set_of_free free function, get?, get?, List.lookup_append]
  by_cases same : other = key
  · simp [same]
  · simp [same, List.lookup_cons, beq_eq_false_iff_ne.mpr same]

theorem keys_set_nodup (distinct : program.keys.Nodup) :
    (program.set key function).keys.Nodup := by
  have absent : key ∉ program.keys := by
    rw [mem_keys]
    simp [free]
  rw [set_of_free free function, keys, List.map_append, List.nodup_append]
  refine ⟨distinct, List.nodup_singleton key, ?_⟩
  rintro name isName other isOther rfl
  obtain rfl : name = key := by simpa using isOther
  exact absent isName

end Set

/-- A function is entered under its name when the name is free, and left out otherwise. -/
theorem add_cases {program after : Program} {function : Function}
    (added : (program.add function).outcome = .ok after) :
    ∃ name, function.name.outcome = .ok name ∧
      ((program.get? name = none ∧ after = program.set name function) ∨
        ((∃ kept, program.get? name = some kept) ∧ after = program)) := by
  simp only [add, Logged.outcome_bind] at added
  obtain ⟨name, isName, added⟩ := Outcome.bind_eq_ok added
  refine ⟨name, isName, ?_⟩
  cases taken : program.get? name with
  | none =>
      simp only [taken, Logged.outcome_pure, Except.ok.injEq] at added
      exact Or.inl ⟨rfl, added.symm⟩
  | some kept =>
      simp only [taken, Logged.outcome_bind, Logged.outcome_note, Outcome.ok_bind,
        Logged.outcome_pure, Except.ok.injEq] at added
      exact Or.inr ⟨⟨kept, rfl⟩, added.symm⟩

section Load

variable {demangler : Symbol.Demangler}

/-- Entering functions in turn leaves the first one under every name, behind those that were there. -/
theorem load_get? {raws : List RawFunction} : ∀ {program loaded : Program},
    (load demangler program raws).outcome = .ok loaded → ∀ key,
      loaded.get? key = (program.get? key).or
        ((raws.find? (RawFunction.isNamed demangler key)).map
          (Function.ofRaw demangler program.format)) := by
  induction raws with
  | nil =>
      intro program loaded succeeded key
      obtain rfl : program = loaded := Except.ok.inj succeeded
      simp
  | cons raw rest ih =>
      intro program loaded succeeded key
      simp only [load, Logged.outcome_bind] at succeeded
      obtain ⟨after, added, succeeded⟩ := Outcome.bind_eq_ok succeeded
      obtain ⟨name, isName, entered⟩ := add_cases added
      have named : raw.isNamed demangler key = decide (name = key) := by
        rw [Bool.eq_iff_iff, RawFunction.isNamed_iff, decide_eq_true_eq]
        simp only [Function.ofRaw] at isName
        rw [isName, Except.ok.injEq]
      rw [ih succeeded key, List.find?_cons, named]
      rcases entered with ⟨free, rfl⟩ | ⟨⟨kept, taken⟩, rfl⟩
      · rw [get?_set free, set_of_free free, Option.or_assoc]
        by_cases same : name = key
        · simp [same]
        · simp [same, Ne.symm same]
      · by_cases same : name = key
        · subst same
          simp [taken]
        · simp [same]

theorem load_keys_nodup {raws : List RawFunction} : ∀ {program loaded : Program},
    (load demangler program raws).outcome = .ok loaded → program.keys.Nodup →
      loaded.keys.Nodup := by
  induction raws with
  | nil =>
      intro program loaded succeeded distinct
      obtain rfl : program = loaded := Except.ok.inj succeeded
      exact distinct
  | cons raw rest ih =>
      intro program loaded succeeded distinct
      simp only [load, Logged.outcome_bind] at succeeded
      obtain ⟨after, added, succeeded⟩ := Outcome.bind_eq_ok succeeded
      obtain ⟨name, _, entered⟩ := add_cases added
      refine ih succeeded ?_
      rcases entered with ⟨free, rfl⟩ | ⟨_, rfl⟩
      · exact keys_set_nodup free _ distinct
      · exact distinct

/-- Everything in a program was there before, or is a function of the list under its name. -/
theorem load_functions {raws : List RawFunction} : ∀ {program loaded : Program},
    (load demangler program raws).outcome = .ok loaded →
      ∀ entry ∈ loaded.functions, entry ∈ program.functions ∨
        entry.2.name.outcome = .ok entry.1 ∧
          ∃ raw ∈ raws, entry.2 = Function.ofRaw demangler program.format raw := by
  induction raws with
  | nil =>
      intro program loaded succeeded entry member
      obtain rfl : program = loaded := Except.ok.inj succeeded
      exact Or.inl member
  | cons raw rest ih =>
      intro program loaded succeeded entry member
      simp only [load, Logged.outcome_bind] at succeeded
      obtain ⟨after, added, succeeded⟩ := Outcome.bind_eq_ok succeeded
      obtain ⟨name, isName, entered⟩ := add_cases added
      have later := ih succeeded entry member
      rcases entered with ⟨free, rfl⟩ | ⟨_, rfl⟩
      · rw [set_of_free free] at later
        rcases later with earlier | ⟨hasName, other, isOther, same⟩
        · rcases List.mem_append.mp earlier with earlier | last
          · exact Or.inl earlier
          · rw [List.mem_singleton.mp last]
            exact Or.inr ⟨isName, raw, List.mem_cons_self, rfl⟩
        · exact Or.inr ⟨hasName, other, List.mem_cons_of_mem _ isOther, same⟩
      · rcases later with earlier | ⟨hasName, other, isOther, same⟩
        · exact Or.inl earlier
        · exact Or.inr ⟨hasName, other, List.mem_cons_of_mem _ isOther, same⟩

variable {name : String} {format : Format} {raws : List RawFunction} {program : Program}
  (loaded : (load demangler (.empty name format) raws).outcome = .ok program)

include loaded

theorem get?_loaded (key : String) :
    program.get? key = (raws.find? (RawFunction.isNamed demangler key)).map
      (Function.ofRaw demangler format) := by
  rw [load_get? loaded key]
  rfl

theorem keys_loaded_nodup : program.keys.Nodup :=
  load_keys_nodup loaded List.nodup_nil

theorem mem_keys_loaded {key : String} :
    key ∈ program.keys ↔ Named demangler raws key := by
  rw [mem_keys, get?_loaded loaded key, ← Option.isSome_iff_exists, Option.isSome_map,
    List.find?_isSome]
  simp only [RawFunction.isNamed_iff, Named]

/-- The function under a key has this key as its name. -/
theorem name_of_get? {key : String} {function : Function}
    (found : program.get? key = some function) : function.name.outcome = .ok key := by
  rw [get?_loaded loaded key] at found
  obtain ⟨raw, first, rfl⟩ := Option.map_eq_some_iff.mp found
  have named := RawFunction.isNamed_iff.mp (List.find?_some first)
  exact named

/-- A function that is found has a name, though perhaps not the one that was asked for. -/
theorem exists_name_of_find? {wanted : String} {function : Function}
    (found : program.find? wanted = some function) :
    ∃ key, function.name.outcome = .ok key := by
  obtain ⟨key, member⟩ := mem_of_find? found
  rcases load_functions loaded _ member with earlier | ⟨hasName, _⟩
  · cases earlier
  · exact ⟨key, hasName⟩

end Load

end Program

end FlowAlign
