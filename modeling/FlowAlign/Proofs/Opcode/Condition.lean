import Mathlib.Data.List.Find
import FlowAlign.Opcode.Class
import FlowAlign.Proofs.Text.Affix

/-!
Conditions of instructions that are executed on a condition. Mnemonics of the table and of loads keep it in
their class, so that instructions with different conditions never agree; stores lose it.
-/

namespace FlowAlign.Opcode

def widths : List String :=
  ["", ".w", ".n"]

def isStore (base : String) : Bool :=
  Text.startsWithAny armStoreStarts base

/-- Mnemonics that a condition can follow: those of the table, and those that begin like a load or a store
and do not end in a condition themselves. -/
inductive Unconditional (base : String) : Prop
  | listed : (armClasses.lookup base).isSome = true → Unconditional base
  | access : Text.lower base = base → '.' ∉ base.toList →
      Text.startsWithAny (armLoadStarts ++ armStoreStarts) base = true →
      (∀ entry ∈ armConditions, Text.endsWith base entry.1 = false) → Unconditional base

/-- An instruction whose mnemonic is a base with the code of a condition, and perhaps a width. -/
structure Conditioned (instruction : Instruction) (base condition : String) : Prop where
  sequential : instruction.flow = .sequential
  unconditional : Unconditional base
  spelled : ∃ code width, (code, condition) ∈ armConditions ∧ width ∈ widths ∧
    instruction.mnemonic = base ++ code ++ width

theorem lookup_isSome {table : List (String × String)} {key : String}
    (found : (table.lookup key).isSome = true) : ∃ entry ∈ table, entry.1 = key := by
  obtain ⟨value, found⟩ := Option.isSome_iff_exists.mp found
  obtain ⟨before, after, rfl, _⟩ := List.lookup_eq_some_iff.mp found
  exact ⟨(key, value), by simp, rfl⟩

/-- Mnemonics, codes and widths have no capitals and no letters beyond ASCII. -/
def IsSmall (text : String) : Prop :=
  ∀ char ∈ text.toList, char.toNat < 65 ∨ 90 < char.toNat ∧ char.toNat < 192

instance (text : String) : Decidable (IsSmall text) :=
  List.decidableBAll _ text.toList

theorem lower_of_small {text : String} (small : IsSmall text) : Text.lower text = text :=
  (Text.lower_eq_self_iff text).mpr fun char member => Text.isLower_of_small (small char member)

/-- Mnemonics of the table have three characters or more; those long enough to hold another one and a
condition do not end in a condition. -/
theorem armClasses_spelled : ∀ entry ∈ armClasses, IsSmall entry.1 ∧ '.' ∉ entry.1.toList ∧
    Text.startsWithAny (armLoadStarts ++ armStoreStarts) entry.1 = false ∧
    3 ≤ entry.1.toList.length ∧ (5 ≤ entry.1.toList.length →
      ∀ condition ∈ armConditions, Text.endsWith entry.1 condition.1 = false) := by
  decide +kernel

theorem armConditions_spelled : ∀ entry ∈ armConditions, entry.1.toList.length = 2 ∧
    IsSmall entry.1 ∧ '.' ∉ entry.1.toList ∧ '.' ∉ entry.2.toList := by
  decide

theorem armConditions_find : ∀ entry ∈ armConditions,
    armConditions.find? (fun other => other.1 == entry.1) = some entry := by
  decide

theorem widths_small : ∀ width ∈ widths, IsSmall width := by
  decide

theorem Unconditional.lower {base : String} (unconditional : Unconditional base) :
    Text.lower base = base := by
  cases unconditional with
  | listed found =>
      obtain ⟨entry, member, rfl⟩ := lookup_isSome found
      exact lower_of_small (armClasses_spelled entry member).1
  | access isLower _ _ _ => exact isLower

theorem Unconditional.dotless {base : String} (unconditional : Unconditional base) :
    '.' ∉ base.toList := by
  cases unconditional with
  | listed found =>
      obtain ⟨entry, member, rfl⟩ := lookup_isSome found
      exact (armClasses_spelled entry member).2.1
  | access _ dotless _ _ => exact dotless

theorem endsWith_dotted {text ending : String} (dotless : '.' ∉ text.toList)
    (dotted : '.' ∈ ending.toList) : Text.endsWith text ending = false := by
  rw [Bool.eq_false_iff]
  intro ends
  exact dotless ((Text.endsWith_iff.mp ends).subset dotted)

theorem withoutWidth_of_dotless {mnemonic : String} (dotless : '.' ∉ mnemonic.toList) :
    withoutWidth mnemonic = mnemonic := by
  rw [withoutWidth, Text.removeEnding_of_not_endsWith (endsWith_dotted dotless (by decide)),
    Text.removeEnding_of_not_endsWith (endsWith_dotted dotless (by decide))]

theorem withoutWidth_append {mnemonic width : String} (dotless : '.' ∉ mnemonic.toList)
    (known : width ∈ widths) : withoutWidth (mnemonic ++ width) = mnemonic := by
  simp only [widths, List.mem_cons, List.not_mem_nil, or_false] at known
  rcases known with rfl | rfl | rfl
  · rw [String.append_empty]
    exact withoutWidth_of_dotless dotless
  · rw [withoutWidth, Text.removeEnding_append]
    exact Text.removeEnding_of_not_endsWith (endsWith_dotted dotless (by decide))
  · have other : Text.endsWith (mnemonic ++ ".n") ".w" = false := by
      rw [Bool.eq_false_iff, Ne,
        Text.endsWith_append_iff (show ".w".toList.length = ".n".toList.length from rfl)]
      decide
    rw [withoutWidth, Text.removeEnding_of_not_endsWith other, Text.removeEnding_append]

/-- The code at the end of a mnemonic is found when its base can take a condition, and only then. -/
theorem find_condition {base code condition : String} (known : (code, condition) ∈ armConditions) :
    armConditions.find? (fun entry => Text.endsWith (base ++ code) entry.1 &&
        isConditionable (Text.removeEnding entry.1 (base ++ code))) =
      if isConditionable base = true then some (code, condition) else none := by
  have same : ∀ entry ∈ armConditions, (Text.endsWith (base ++ code) entry.1 &&
      isConditionable (Text.removeEnding entry.1 (base ++ code))) =
        (entry.1 == code && isConditionable base) := by
    intro entry member
    have even := (armConditions_spelled entry member).1.trans
      (armConditions_spelled _ known).1.symm
    rw [Bool.eq_iff_iff, Bool.and_eq_true, Bool.and_eq_true, Text.endsWith_append_iff even, beq_iff_eq]
    refine and_congr_right fun isCode => ?_
    rw [isCode, Text.removeEnding_append]
  rw [List.find?_congr same]
  split
  · next can => simpa only [can, Bool.and_true] using armConditions_find _ known
  · next cannot => simp [cannot]

/-- A mnemonic spelled as a base and a code is not in the table. -/
theorem lookup_conditioned {base code condition : String} (unconditional : Unconditional base)
    (known : (code, condition) ∈ armConditions) : armClasses.lookup (base ++ code) = none := by
  rw [← Option.not_isSome_iff_eq_none]
  intro found
  obtain ⟨entry, member, spelled⟩ := lookup_isSome found
  cases unconditional with
  | listed found =>
      obtain ⟨other, known', rfl⟩ := lookup_isSome found
      obtain ⟨_, _, _, atLeast, _⟩ := armClasses_spelled other known'
      obtain ⟨_, _, _, _, unended⟩ := armClasses_spelled entry member
      rw [spelled, String.toList_append, List.length_append, (armConditions_spelled _ known).1] at unended
      have ends := unended (by omega) _ known
      rw [Text.endsWith_append] at ends
      cases ends
  | access _ _ begins _ =>
      have other := (armClasses_spelled entry member).2.2.1
      rw [spelled, Text.startsWithAny_append begins] at other
      cases other

theorem accessStarts_apart : ∀ load ∈ armLoadStarts, ∀ store ∈ armStoreStarts,
    ¬ load.toList <+: store.toList ∧ ¬ store.toList <+: load.toList := by
  decide

/-- No text begins both like a load and like a store. -/
theorem not_load_of_store {base : String} (store : isStore base = true) :
    Text.startsWithAny armLoadStarts base = false := by
  rw [Bool.eq_false_iff]
  intro load
  obtain ⟨first, known, begins⟩ := List.any_eq_true.mp load
  obtain ⟨second, known', begins'⟩ := List.any_eq_true.mp store
  obtain ⟨apart, apart'⟩ := accessStarts_apart first known second known'
  rcases List.prefix_or_prefix_of_prefix (List.isPrefixOf_iff_prefix.mp begins)
    (List.isPrefixOf_iff_prefix.mp begins') with inside | inside
  · exact apart inside
  · exact apart' inside

theorem lookup_eq_none_of_access {base : String}
    (begins : Text.startsWithAny (armLoadStarts ++ armStoreStarts) base = true) :
    armClasses.lookup base = none := by
  rw [← Option.not_isSome_iff_eq_none]
  intro found
  obtain ⟨entry, member, rfl⟩ := lookup_isSome found
  rw [(armClasses_spelled entry member).2.2.1] at begins
  cases begins

/-- All bases but those of stores are looked for under a condition. -/
theorem Unconditional.isConditionable {base : String} (unconditional : Unconditional base) :
    isConditionable base = !isStore base := by
  rw [Opcode.isConditionable, isStore]
  cases unconditional with
  | listed found =>
      obtain ⟨entry, member, rfl⟩ := lookup_isSome found
      have other := (armClasses_spelled entry member).2.2.1
      rw [Text.startsWithAny_either, Bool.or_eq_false_iff] at other
      rw [found, other.2, Bool.true_or, Bool.not_false]
  | access _ _ begins _ =>
      rw [lookup_eq_none_of_access begins, Option.isSome_none, Bool.false_or]
      rw [Text.startsWithAny_either, Bool.or_eq_true] at begins
      cases store : Text.startsWithAny armStoreStarts base with
      | true => rw [not_load_of_store store, Bool.not_true]
      | false =>
          rw [store, Bool.false_eq_true, or_false] at begins
          rw [begins, Bool.not_false]

/-- A base has no condition of its own. -/
theorem Unconditional.splitCondition {base : String} (unconditional : Unconditional base) :
    splitCondition base = (base, none) := by
  rw [Opcode.splitCondition, withoutWidth_of_dotless unconditional.dotless]
  cases unconditional with
  | listed found => rw [if_pos found]
  | access _ _ _ unended =>
      split
      · rfl
      · rw [List.find?_eq_none.mpr]
        intro entry member
        simp [unended entry member]

theorem splitCondition_conditioned {base code condition width : String}
    (unconditional : Unconditional base) (known : (code, condition) ∈ armConditions)
    (known' : width ∈ widths) :
    splitCondition (base ++ code ++ width) =
      if isStore base = true then (base ++ code, none) else (base, some condition) := by
  have dotless : '.' ∉ (base ++ code).toList := by
    rw [String.toList_append, List.mem_append, not_or]
    exact ⟨unconditional.dotless, (armConditions_spelled _ known).2.2.1⟩
  simp only [splitCondition, withoutWidth_append dotless known', lookup_conditioned unconditional known,
    find_condition known, unconditional.isConditionable]
  cases store : isStore base with
  | true => simp
  | false => simp [Text.removeEnding_append]

/-- What begins like a store is one, whatever follows. -/
theorem plainClass_store {base : String} (store : isStore base = true) (rest : String) :
    plainClass .arm32 armClasses (base ++ rest) = "store" := by
  have begins : Text.startsWithAny armStoreStarts (base ++ rest) = true :=
    Text.startsWithAny_append store rest
  have access : Text.startsWithAny (armLoadStarts ++ armStoreStarts) (base ++ rest) = true := by
    rw [Text.startsWithAny_either, begins, Bool.or_true]
  simp [plainClass, lookup_eq_none_of_access access, not_load_of_store begins, begins, isArm]

theorem opcodeClass_sequential (instruction : Instruction)
    (sequential : instruction.flow = .sequential) : opcodeClass? .arm32 instruction =
      let (base, condition) := splitCondition (Text.lower instruction.mnemonic)
      let found := refineMove (instruction.operands.map Operand.type) (plainClass .arm32 armClasses base)
      some (match condition with
        | some code => found ++ "." ++ code
        | none => found) := by
  simp only [opcodeClass?, sequential, flowClass?, sequentialClass?, comparisonClass?, classes?]
  simp
  split <;> simp_all

/-- An instruction with a condition has the class of its base and the condition, or that of a store. -/
theorem opcodeClass_of_conditioned {instruction : Instruction} {base condition : String}
    (given : Conditioned instruction base condition) : ∃ plain,
      opcodeClass? .arm32 { instruction with mnemonic := base } = some plain ∧
      (isStore base = true → plain = "store" ∧ opcodeClass? .arm32 instruction = some "store") ∧
      (isStore base = false →
        opcodeClass? .arm32 instruction = some (plain ++ "." ++ condition)) := by
  obtain ⟨sequential, unconditional, code, width, known, known', spelled⟩ := given
  have isLower : Text.lower instruction.mnemonic = base ++ code ++ width := by
    rw [spelled]
    exact Text.lower_append_eq_self (Text.lower_append_eq_self unconditional.lower
      (lower_of_small (armConditions_spelled _ known).2.1)) (lower_of_small (widths_small _ known'))
  have alone : opcodeClass? .arm32 { instruction with mnemonic := base } =
      some (refineMove (instruction.operands.map Operand.type)
        (plainClass .arm32 armClasses base)) := by
    rw [opcodeClass_sequential { instruction with mnemonic := base } sequential]
    simp only [unconditional.lower, unconditional.splitCondition]
  refine ⟨_, alone, ?_, ?_⟩
  · intro store
    have plain := plainClass_store store ""
    rw [String.append_empty] at plain
    rw [opcodeClass_sequential instruction sequential, isLower,
      splitCondition_conditioned unconditional known known', if_pos store]
    simp only [plain, plainClass_store store code]
    exact ⟨rfl, rfl⟩
  · intro other
    rw [opcodeClass_sequential instruction sequential, isLower,
      splitCondition_conditioned unconditional known known', if_neg (Bool.eq_false_iff.mp other)]

/-- Of two endings behind the last mark of a text none is longer. -/
theorem length_le_of_suffix {mark : Char} {text ending other : List Char} (absent : mark ∉ other)
    (behind : mark :: ending <:+ text) (behind' : other <:+ text) : other.length ≤ ending.length := by
  by_contra longer
  have inside : mark :: ending <:+ other :=
    List.suffix_of_suffix_length_le behind behind' (by rw [List.length_cons]; omega)
  exact absent (inside.subset List.mem_cons_self)

/-- The condition at the end of a class can be read back. -/
theorem condition_inj {first second condition condition' : String} (dotless : '.' ∉ condition.toList)
    (dotless' : '.' ∉ condition'.toList)
    (same : first ++ "." ++ condition = second ++ "." ++ condition') : condition = condition' := by
  have split (class' condition : String) :
      (class' ++ "." ++ condition).toList = class'.toList ++ '.' :: condition.toList := by simp
  have behind : '.' :: condition.toList <:+ (first ++ "." ++ condition).toList :=
    split first condition ▸ List.suffix_append _ _
  have behind' : '.' :: condition'.toList <:+ (first ++ "." ++ condition).toList :=
    same ▸ split second condition' ▸ List.suffix_append _ _
  have inside := (List.suffix_cons _ _).trans behind
  have inside' := (List.suffix_cons _ _).trans behind'
  have even := Nat.le_antisymm (length_le_of_suffix dotless behind' inside)
    (length_le_of_suffix dotless' behind inside')
  exact String.toList_injective
    ((List.suffix_of_suffix_length_le inside inside' (Nat.le_of_eq even)).eq_of_length even)

theorem class_ne_store (plain condition : String) : plain ++ "." ++ condition ≠ "store" := by
  intro same
  have dotted : '.' ∈ "store".toList := by rw [← same]; simp
  exact absurd dotted (by decide)

theorem Conditioned.dotless {instruction : Instruction} {base condition : String}
    (given : Conditioned instruction base condition) : '.' ∉ condition.toList := by
  obtain ⟨code, width, known, _⟩ := given.spelled
  exact (armConditions_spelled _ known).2.2.2

/-- Conditions are kept in the class of every instruction but a store, and tell such instructions
apart. -/
theorem opcodeClass_conditions {first second : Instruction}
    {base base' condition condition' : String} (given : Conditioned first base condition)
    (given' : Conditioned second base' condition') :
    (isStore base = false → opcodeClass? .arm32 first =
      (opcodeClass? .arm32 { first with mnemonic := base }).map (· ++ "." ++ condition)) ∧
    (isStore base = true → opcodeClass? .arm32 first =
      opcodeClass? .arm32 { first with mnemonic := base }) ∧
    (condition ≠ condition' → (opcodeClass? .arm32 first = opcodeClass? .arm32 second ↔
      isStore base = true ∧ isStore base' = true)) := by
  obtain ⟨plain, alone, store, other⟩ := opcodeClass_of_conditioned given
  obtain ⟨plain', _, store', other'⟩ := opcodeClass_of_conditioned given'
  refine ⟨?_, ?_, ?_⟩
  · intro isOther
    rw [other isOther, alone, Option.map_some]
  · intro isStore
    rw [(store isStore).2, alone, (store isStore).1]
  · intro differ
    constructor
    · intro same
      cases isStore : Opcode.isStore base with
      | true =>
          cases isStore' : Opcode.isStore base' with
          | true => exact ⟨rfl, rfl⟩
          | false =>
              rw [(store isStore).2, other' isStore', Option.some.injEq] at same
              exact (class_ne_store _ _ same.symm).elim
      | false =>
          cases isStore' : Opcode.isStore base' with
          | true =>
              rw [other isStore, (store' isStore').2, Option.some.injEq] at same
              exact (class_ne_store _ _ same).elim
          | false =>
              rw [other isStore, other' isStore', Option.some.injEq] at same
              exact (differ (condition_inj given.dotless given'.dotless same)).elim
    · rintro ⟨isStore, isStore'⟩
      rw [(store isStore).2, (store' isStore').2]

def loadNotEqual : Instruction :=
  { address := 0
    mnemonic := "ldrne.w"
    text := "ldrne.w r0, [r1]"
    operands := [{ type := .register, text := "r0" }, { type := .memory, text := "[r1]" }] }

def addEqual : Instruction :=
  { address := 4
    mnemonic := "addeq"
    text := "addeq r0, r1"
    operands := [{ type := .register, text := "r0" }, { type := .register, text := "r1" }] }

def storeEqual : Instruction :=
  { address := 8
    mnemonic := "streq"
    text := "streq r0, [r1]"
    operands := [{ type := .register, text := "r0" }, { type := .memory, text := "[r1]" }] }

theorem loadNotEqual_conditioned : Conditioned loadNotEqual "ldr" "ne" where
  sequential := rfl
  unconditional := .access (lower_of_small (by decide)) (by decide) (by decide) (by decide)
  spelled := ⟨"ne", ".w", by decide, by decide, by decide⟩

theorem addEqual_conditioned : Conditioned addEqual "add" "eq" where
  sequential := rfl
  unconditional := .listed (by decide)
  spelled := ⟨"eq", "", by decide, by decide, by decide⟩

theorem storeEqual_conditioned : Conditioned storeEqual "str" "eq" where
  sequential := rfl
  unconditional := .access (lower_of_small (by decide)) (by decide) (by decide) (by decide)
  spelled := ⟨"eq", "", by decide, by decide, by decide⟩

theorem opcodeClass_conditions_load :
    Conditioned loadNotEqual "ldr" "ne" ∧ Conditioned addEqual "add" "eq" ∧
      opcodeClass? .arm32 loadNotEqual =
        (opcodeClass? .arm32 { loadNotEqual with mnemonic := "ldr" }).map (· ++ "." ++ "ne") ∧
      opcodeClass? .arm32 loadNotEqual ≠ opcodeClass? .arm32 addEqual := by
  obtain ⟨kept, _, apart⟩ := opcodeClass_conditions loadNotEqual_conditioned addEqual_conditioned
  have isOther : isStore "ldr" = false := by decide
  refine ⟨loadNotEqual_conditioned, addEqual_conditioned, kept isOther, fun same => ?_⟩
  have both := (apart (by decide)).mp same
  rw [isOther] at both
  exact Bool.false_ne_true both.1

/-- A store loses its condition. -/
theorem store_condition_lost : Conditioned storeEqual "str" "eq" ∧
    opcodeClass? .arm32 storeEqual = some "store" ∧
    (opcodeClass? .arm32 { storeEqual with mnemonic := "str" }).map (· ++ "." ++ "eq") =
      some "store.eq" := by
  obtain ⟨plain, alone, store, _⟩ := opcodeClass_of_conditioned storeEqual_conditioned
  obtain ⟨isPlain, lost⟩ := store (by decide)
  exact ⟨storeEqual_conditioned, lost, by rw [alone, isPlain]; rfl⟩

end FlowAlign.Opcode
