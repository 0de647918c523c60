import FlowAlign.Proofs.Symbol.Escapes

/-!
Readable names of all symbols. A name is kept when it is not mangled or not understood, and the name of a
legacy Rust symbol loses its hash and its escapes. The one failure comes from numeric escapes that are no
code points.
-/

namespace FlowAlign.Symbol

/-- Names of the Itanium mangling; those of MachO carry one more underscore. -/
def Mangled (name : String) : Prop :=
  Text.startsWith name "_Z" = true ∨ Text.startsWith name "__Z" = true

instance (name : String) : Decidable (Mangled name) :=
  inferInstanceAs (Decidable (_ ∨ _))

def IsHash (hash : List Char) : Prop :=
  ∃ digits, hash = [':', ':', 'h'] ++ digits ∧ digits.length = 16 ∧ ∀ digit ∈ digits, isLowerHex digit = true

/-- Texts with a hash at their end or in front of a final line break, and what is kept of them. -/
inductive Hashed : List Char → List Char → Prop
  | atEnd {kept hash : List Char} : IsHash hash → Hashed (kept ++ hash) kept
  | line {kept hash : List Char} : IsHash hash → Hashed (kept ++ hash ++ ['\n']) (kept ++ ['\n'])

section Hash

variable {text kept hash : List Char}

theorem IsHash.length (isHash : IsHash hash) : hash.length = 19 := by
  obtain ⟨digits, rfl, count, _⟩ := isHash
  simp [count]

theorem IsHash.no_break (isHash : IsHash hash) : '\n' ∉ hash := by
  obtain ⟨digits, rfl, _, hex⟩ := isHash
  rw [List.mem_append, not_or]
  exact ⟨by decide, fun member => absurd (hex _ member) (by decide)⟩

theorem isRustHash_iff : isRustHash text = true ↔ IsHash text := by
  constructor
  · intro accepted
    unfold isRustHash at accepted
    split at accepted
    · next digits =>
        rw [Bool.and_eq_true, beq_iff_eq, List.all_eq_true] at accepted
        exact ⟨digits, rfl, accepted.1, accepted.2⟩
    · cases accepted
  · rintro ⟨digits, rfl, count, hex⟩
    simpa [isRustHash, count] using hex

theorem dropHash?_append (isHash : IsHash hash) (kept : List Char) :
    dropHash? (kept ++ hash) = some kept := by
  rw [dropHash?, List.length_append, isHash.length, Nat.add_sub_cancel, List.drop_left, List.take_left,
    if_pos (isRustHash_iff.mpr isHash)]

theorem dropHash?_eq_some_iff :
    dropHash? text = some kept ↔ ∃ hash, IsHash hash ∧ text = kept ++ hash := by
  constructor
  · intro found
    simp only [dropHash?, isRustHash_iff, Option.ite_none_right_eq_some, Option.some.injEq] at found
    obtain ⟨isHash, rfl⟩ := found
    exact ⟨_, isHash, (List.take_append_drop _ _).symm⟩
  · rintro ⟨hash, isHash, rfl⟩
    exact dropHash?_append isHash kept

/-- A text that ends in a line break does not end in a hash. -/
theorem dropHash?_line (front : List Char) : dropHash? (front ++ ['\n']) = none := by
  refine Option.eq_none_iff_forall_ne_some.mpr fun kept found => ?_
  obtain ⟨hash, isHash, whole⟩ := dropHash?_eq_some_iff.mp found
  have ending : ['\n'] <:+ hash := by
    refine List.suffix_of_suffix_length_le (whole ▸ List.suffix_append _ _) (List.suffix_append kept _) ?_
    rw [isHash.length]
    decide
  exact isHash.no_break (ending.subset List.mem_cons_self)

theorem withoutHash?_eq_some_iff : withoutHash? text = some kept ↔ Hashed text kept := by
  constructor
  · intro found
    unfold withoutHash? at found
    split at found
    · next front dropped =>
        cases found
        obtain ⟨hash, isHash, rfl⟩ := dropHash?_eq_some_iff.mp dropped
        exact .atEnd isHash
    · split at found
      · next broken =>
          obtain ⟨front, dropped, rfl⟩ := Option.map_eq_some_iff.mp found
          obtain ⟨hash, isHash, whole⟩ := dropHash?_eq_some_iff.mp dropped
          rw [← List.dropLast_append_getLast? _ broken, whole]
          exact .line isHash
      · cases found
  · intro hashed
    cases hashed with
    | atEnd isHash =>
        unfold withoutHash?
        rw [dropHash?_append isHash]
    | line isHash =>
        unfold withoutHash?
        rw [dropHash?_line]
        simp only [List.getLast?_concat, if_true, List.dropLast_concat, dropHash?_append isHash,
          Option.map_some]

instance (text kept : List Char) : Decidable (Hashed text kept) :=
  decidable_of_iff (withoutHash? text = some kept) withoutHash?_eq_some_iff

theorem withoutHash?_eq_none_iff : withoutHash? text = none ↔ ∀ kept, ¬ Hashed text kept := by
  simp only [Option.eq_none_iff_forall_ne_some, ne_eq, withoutHash?_eq_some_iff]

end Hash

section Demangling

variable {demangler : Demangler} {name text : String}

theorem parse_alone (symbol : String) (answer : Parsed) : parse [(symbol, answer)] symbol = answer := by
  rw [parse, List.lookup_cons_self, Option.getD_some]

theorem startsWith_mangledPart : Text.startsWith (mangledPart name) "_Z" = true ↔ Mangled name := by
  unfold mangledPart Mangled
  by_cases machO : Text.startsWith name "__Z" = true
  · obtain ⟨rest, whole⟩ := List.isPrefixOf_iff_prefix.mp machO
    rw [if_pos machO]
    refine iff_of_true ?_ (Or.inr machO)
    simp [Text.startsWith, Text.dropStart, ← whole]
  · rw [if_neg machO, or_iff_left machO]

theorem demangle_unmangled (plain : ¬ Mangled name) : (demangle demangler name).outcome = .ok name := by
  rw [← startsWith_mangledPart, Bool.not_eq_true] at plain
  simp [demangle, plain]

theorem demangle_unparsed (unparsed : ∀ text, parse demangler (mangledPart name) ≠ .name text) :
    (demangle demangler name).outcome = .ok name := by
  simp only [demangle]
  split
  · rfl
  · split
    · rfl
    · rfl
    · next text parsed => exact (unparsed text parsed).elim

theorem demangle_parsed (mangled : Mangled name)
    (parsed : parse demangler (mangledPart name) = .name text) :
    (demangle demangler name).outcome =
      if (withoutHash? text.toList).isSome then cleanRust text else .ok text := by
  rw [← startsWith_mangledPart] at mangled
  simp only [demangle, mangled, parsed, Bool.not_true, Bool.false_eq_true, if_false]
  split <;> rfl

theorem demangle_unhashed (mangled : Mangled name)
    (parsed : parse demangler (mangledPart name) = .name text) (none : ∀ kept, ¬ Hashed text.toList kept) :
    (demangle demangler name).outcome = .ok text := by
  rw [demangle_parsed mangled parsed, withoutHash?_eq_none_iff.mpr none]
  rfl

theorem demangle_hashed {kept : List Char} (mangled : Mangled name)
    (parsed : parse demangler (mangledPart name) = .name text) (hashed : Hashed text.toList kept) :
    (demangle demangler name).outcome = cleanRust text := by
  rw [demangle_parsed mangled parsed, withoutHash?_eq_some_iff.mpr hashed]
  rfl

/-- Only the names of legacy Rust symbols can fail. -/
theorem exists_hashed_of_error {fault : Fault} (failed : (demangle demangler name).outcome = .error fault) :
    Mangled name ∧ ∃ text kept,
      parse demangler (mangledPart name) = .name text ∧ Hashed text.toList kept := by
  have mangled : Mangled name := by
    by_contra plain
    rw [demangle_unmangled plain] at failed
    cases failed
  refine ⟨mangled, ?_⟩
  by_contra none
  by_cases unparsed : ∀ text, parse demangler (mangledPart name) ≠ .name text
  · rw [demangle_unparsed unparsed] at failed
    cases failed
  · push Not at unparsed
    obtain ⟨text, parsed⟩ := unparsed
    rw [demangle_unhashed mangled parsed fun kept hashed => none ⟨text, kept, parsed, hashed⟩] at failed
    cases failed

theorem cleanRust_hashed {kept : List Char} (hashed : Hashed text.toList kept) :
    cleanRust text = ((decodeNumeric 0 (decodePunctuation kept)).map
      (replaceAll ['.', '.'] [':', ':'])).map String.ofList := by
  simp only [cleanRust, withoutHash?_eq_some_iff.mpr hashed, Option.getD_some]
  cases decodeNumeric 0 (decodePunctuation kept) <;> rfl

/-- Whether a name that lost its hash has a numeric escape that is no code point. -/
def OutOfRange (kept : List Char) : Prop :=
  ∃ pieces, Scanned pieces ∧ pieces.flatMap Piece.written = decodePunctuation kept ∧
    ∃ piece ∈ pieces, ¬ piece.InRange

theorem cleanRust_eq_error_iff {kept : List Char} (hashed : Hashed text.toList kept) {fault : Fault} :
    cleanRust text = .error fault ↔ fault = .data .unreadable ∧ OutOfRange kept := by
  have decoded {pieces : List Piece} (scanned : Scanned pieces)
      (whole : pieces.flatMap Piece.written = decodePunctuation kept) :
      cleanRust text = .error fault ↔ fault = .data .unreadable ∧ ∃ piece ∈ pieces, ¬ piece.InRange := by
    rw [cleanRust_hashed hashed, ← whole, scanned.decoded, ← readPieces_eq_error_iff]
    cases readPieces pieces <;> simp [Except.map]
  constructor
  · intro failed
    obtain ⟨pieces, scanned, whole⟩ := exists_scanned (decodePunctuation kept)
    obtain ⟨cause, beyond⟩ := (decoded scanned whole).mp failed
    exact ⟨cause, pieces, scanned, whole, beyond⟩
  · rintro ⟨cause, pieces, scanned, whole, beyond⟩
    exact (decoded scanned whole).mpr ⟨cause, beyond⟩

/-- What becomes of a name, whatever the demangler answers. -/
structure Settled (demangler : Demangler) (name : String) : Prop where
  unmangled : ¬ Mangled name → (demangle demangler name).outcome = .ok name
  unparsed : (∀ text, parse demangler (mangledPart name) ≠ .name text) →
    (demangle demangler name).outcome = .ok name
  unhashed : ∀ text, Mangled name → parse demangler (mangledPart name) = .name text →
    (∀ kept, ¬ Hashed text.toList kept) → (demangle demangler name).outcome = .ok text
  hashed : ∀ text pieces, Mangled name → parse demangler (mangledPart name) = .name text →
    Hashed text.toList (pieces.flatMap Piece.written) → Clear pieces →
    (demangle demangler name).outcome = (readPieces pieces).map String.ofList
  failed : ∀ fault, (demangle demangler name).outcome = .error fault ↔
    fault = .data .unreadable ∧ Mangled name ∧ ∃ text kept,
      parse demangler (mangledPart name) = .name text ∧ Hashed text.toList kept ∧ OutOfRange kept

/-- Every name becomes a text, a Rust name the one that its pieces stand for, unless an escape is out of
range. -/
theorem demangle_settled (demangler : Demangler) (name : String) : Settled demangler name where
  unmangled := demangle_unmangled
  unparsed := demangle_unparsed
  unhashed _ := demangle_unhashed
  hashed := by
    intro text pieces mangled parsed hashed clear
    rw [demangle_hashed mangled parsed hashed, cleanRust_hashed hashed, clear.decoded]
  failed := by
    intro fault
    constructor
    · intro failed
      obtain ⟨mangled, text, kept, parsed, hashed⟩ := exists_hashed_of_error failed
      rw [demangle_hashed mangled parsed hashed, cleanRust_eq_error_iff hashed] at failed
      exact ⟨failed.1, mangled, text, kept, parsed, hashed, failed.2⟩
    · rintro ⟨cause, mangled, text, kept, parsed, hashed, outOfRange⟩
      rw [demangle_hashed mangled parsed hashed, cleanRust_eq_error_iff hashed]
      exact ⟨cause, outOfRange⟩

end Demangling

/-- Pieces of a method of the trait implementation `<alloc::vec::Vec<T> as core::clone::Clone>`. -/
def clonePieces : List Piece :=
  let plain (text : String) : List Piece := text.toList.map .plain
  let less : Piece := .named ['L', 'T'] '<'
  let greater : Piece := .named ['G', 'T'] '>'
  let space : Piece := .numbered ['2', '0']
  plain "_" ++ [less] ++ plain "alloc" ++ [.separator] ++ plain "vec" ++ [.separator] ++ plain "Vec" ++
    [less] ++ plain "T" ++ [greater, space] ++ plain "as" ++ [space] ++ plain "core" ++ [.separator] ++
    plain "clone" ++ [.separator] ++ plain "Clone" ++ [greater] ++ plain "::clone"

def cloneSymbol : String :=
  "_ZN63_$LT$alloc..vec..Vec$LT$T$GT$$u20$as$u20$core..clone..Clone$GT$5clone17h0123456789abcdefE"

def cloneParsed : String :=
  "_$LT$alloc..vec..Vec$LT$T$GT$$u20$as$u20$core..clone..Clone$GT$::clone::h0123456789abcdef"

theorem demangle_settled_clone :
    Mangled cloneSymbol ∧ Hashed cloneParsed.toList (clonePieces.flatMap Piece.written) ∧ Clear clonePieces ∧
      (demangle [(cloneSymbol, .name cloneParsed)] cloneSymbol).outcome =
        .ok "_<alloc::vec::Vec<T> as core::clone::Clone>::clone" := by
  -- decoding the bytes of a long text takes most of the time, so its characters are put in its place
  have symbol : cloneSymbol.toList = _ := String.toList_ofList
  have chars : cloneParsed.toList = _ := String.toList_ofList
  have mangled : Mangled cloneSymbol := by
    rw [Mangled, Text.startsWith, Text.startsWith, symbol]
    decide
  have hashed : Hashed cloneParsed.toList (clonePieces.flatMap Piece.written) := by
    rw [chars]
    decide
  have clear : Clear clonePieces := by decide
  have parsed : parse [(cloneSymbol, .name cloneParsed)] (mangledPart cloneSymbol) = .name cloneParsed := by
    rw [mangledPart, Text.startsWith, symbol, if_neg (by decide), parse_alone]
  have settled := demangle_settled [(cloneSymbol, .name cloneParsed)] cloneSymbol
  refine ⟨mangled, hashed, clear, ?_⟩
  rw [settled.hashed cloneParsed clonePieces mangled parsed hashed clear]
  rfl

/-- The name of a legacy Rust symbol, from the characters of the symbol and of the demangler's answer. -/
theorem demangle_spelled {symbol text kept : List Char} (mangled : ['_', 'Z'] <+: symbol)
    (hashed : Hashed text kept) :
    (demangle [(String.ofList symbol, .name (String.ofList text))] (String.ofList symbol)).outcome =
      ((decodeNumeric 0 (decodePunctuation kept)).map (replaceAll ['.', '.'] [':', ':'])).map
        String.ofList := by
  obtain ⟨rest, rfl⟩ := mangled
  have begins : Mangled (String.ofList (['_', 'Z'] ++ rest)) := by
    simp [Mangled, Text.startsWith]
  have part : mangledPart (String.ofList (['_', 'Z'] ++ rest)) = String.ofList (['_', 'Z'] ++ rest) := by
    simp [mangledPart, Text.startsWith]
  have parsed : parse [(String.ofList (['_', 'Z'] ++ rest), .name (String.ofList text))]
      (mangledPart (String.ofList (['_', 'Z'] ++ rest))) = .name (String.ofList text) := by
    rw [part, parse_alone]
  have hashed' : Hashed (String.ofList text).toList kept := by rwa [String.toList_ofList]
  rw [demangle_hashed begins parsed hashed', cleanRust_hashed hashed']

/-- An escape that is no code point leaves no text at all, and the end of an escape in front of `C$` is
taken for the beginning of an escape: the name is `<(A, C, D) as m::T>::f`. -/
theorem escapes_misread :
    (demangle [("_ZN10x$u110000$17h0123456789abcdefE", .name "x$u110000$::h0123456789abcdef")]
      "_ZN10x$u110000$17h0123456789abcdefE").outcome = .error (.data .unreadable) ∧
    (demangle [("_ZN52_$LT$$LP$A$C$$u20$C$C$$u20$D$RP$$u20$as$u20$m..T$GT$1f17h0123456789abcdefE",
        .name "_$LT$$LP$A$C$$u20$C$C$$u20$D$RP$$u20$as$u20$m..T$GT$::f::h0123456789abcdef")]
      "_ZN52_$LT$$LP$A$C$$u20$C$C$$u20$D$RP$$u20$as$u20$m..T$GT$1f17h0123456789abcdefE").outcome =
        .ok "_<(A,$u20,C$ D) as m::T>::f" := by
  have outsized : "x$u110000$".toList = _ := String.toList_ofList
  have ambiguous : "_$LT$$LP$A$C$$u20$C$C$$u20$D$RP$$u20$as$u20$m..T$GT$::f".toList = _ :=
    String.toList_ofList
  constructor
  · refine (demangle_spelled (by decide) (by decide : Hashed _ "x$u110000$".toList)).trans ?_
    rw [outsized]
    rfl
  · refine (demangle_spelled (by decide) (by rw [ambiguous]; decide :
      Hashed _ "_$LT$$LP$A$C$$u20$C$C$$u20$D$RP$$u20$as$u20$m..T$GT$::f".toList)).trans ?_
    rw [ambiguous]
    rfl

end FlowAlign.Symbol
