import FlowAlign.Proofs.Outcome
import FlowAlign.Symbol

/-!
Escapes in the names of legacy Rust symbols. A name is written in pieces, some of them escaped; the passes
that decode it, each for one kind of escape, give what the pieces stand for as long as no dollar sign and no
dot can be taken for the beginning of another escape.
-/

namespace FlowAlign.Symbol

/-- Codes of the named escapes with the characters they stand for. -/
def codes : List (List Char × Char) :=
  escapes.map fun (escape, char) => ((escape.toList.drop 1).dropLast, char.toList.headD ' ')

def wrapped (code : List Char) : List Char :=
  '$' :: (code ++ ['$'])

def IsNumber (digits : List Char) : Prop :=
  2 ≤ digits.length ∧ digits.length ≤ 6 ∧ ∀ digit ∈ digits, isLowerHex digit = true

instance (digits : List Char) : Decidable (IsNumber digits) :=
  decidable_of_iff (2 ≤ digits.length ∧ digits.length ≤ 6 ∧ digits.all isLowerHex = true)
    (by rw [List.all_eq_true, IsNumber])

def hexNumber (digits : List Char) : Nat :=
  digits.foldl (fun value digit => 16 * value + (Text.hexValue? digit).getD 0) 0

/-- Whether a numeric escape goes on with a text behind its dollar sign. -/
def BeginsNumber (text : List Char) : Prop :=
  ∃ digits rest, IsNumber digits ∧ text = 'u' :: digits ++ '$' :: rest

theorem numericEscape?_number {digits : List Char} (number : IsNumber digits) (rest : List Char) :
    numericEscape? ('u' :: digits ++ '$' :: rest) = some (hexNumber digits, digits.length) := by
  obtain ⟨atLeast, atMost, hex⟩ := number
  have run : (digits ++ '$' :: rest).takeWhile isLowerHex = digits := by
    rw [List.takeWhile_append_of_pos hex, List.takeWhile_cons_of_neg (by decide), List.append_nil]
  simp only [List.cons_append, numericEscape?, run, List.drop_left, List.head?_cons]
  rw [if_pos ⟨atLeast, atMost, trivial⟩, hexNumber]

/-- Only digits between their marks are a numeric escape. -/
theorem beginsNumber_of_escape {text : List Char} {found : Nat × Nat}
    (escape : numericEscape? text = some found) : BeginsNumber text := by
  unfold numericEscape? at escape
  split at escape
  · next rest =>
      simp only at escape
      split at escape
      · next number =>
          obtain ⟨atLeast, atMost, closing⟩ := number
          obtain ⟨behind, closing⟩ := List.head?_eq_some_iff.mp closing
          refine ⟨rest.takeWhile isLowerHex, behind,
            ⟨atLeast, atMost, List.all_eq_true.mp List.all_takeWhile⟩, ?_⟩
          rw [← closing, List.cons_append, List.prefix_iff_eq_append.mp (List.takeWhile_prefix isLowerHex)]
      · cases escape
  · cases escape

theorem beginsNumber_iff {text : List Char} : BeginsNumber text ↔ numericEscape? text ≠ none := by
  constructor
  · rintro ⟨digits, rest, number, rfl⟩
    rw [numericEscape?_number number]
    exact Option.some_ne_none _
  · intro escape
    obtain ⟨found, escape⟩ := Option.ne_none_iff_exists'.mp escape
    exact beginsNumber_of_escape escape

instance (text : List Char) : Decidable (BeginsNumber text) :=
  decidable_of_iff (numericEscape? text ≠ none) beginsNumber_iff.symm

/-- Pieces of a name: characters, characters escaped by name or by number, and separators of its path. -/
inductive Piece where
  | plain (char : Char)
  | named (code : List Char) (char : Char)
  | numbered (digits : List Char)
  | separator
  deriving DecidableEq

namespace Piece

def written : Piece → List Char
  | plain char => [char]
  | named code _ => wrapped code
  | numbered digits => wrapped ('u' :: digits)
  | separator => ['.', '.']

def meaning : Piece → List Char
  | plain char => [char]
  | named _ char => [char]
  | numbered digits => Text.spellPoint (hexNumber digits)
  | separator => [':', ':']

/-- Whether an escape is one that exists. -/
def Formed : Piece → Prop
  | plain _ => True
  | named code char => (code, char) ∈ codes
  | numbered digits => IsNumber digits
  | separator => True

def InRange : Piece → Prop
  | numbered digits => hexNumber digits < 0x110000
  | _ => True

/-- Whether a piece ends in a dollar sign. -/
def Closes : Piece → Prop
  | plain char => char = '$'
  | named _ _ => True
  | numbered _ => True
  | separator => False

instance : DecidablePred Formed
  | plain _ => isTrue trivial
  | named code char => inferInstanceAs (Decidable ((code, char) ∈ codes))
  | numbered digits => inferInstanceAs (Decidable (IsNumber digits))
  | separator => isTrue trivial

instance : DecidablePred InRange
  | plain _ => isTrue trivial
  | named _ _ => isTrue trivial
  | numbered digits => inferInstanceAs (Decidable (hexNumber digits < 0x110000))
  | separator => isTrue trivial

instance : DecidablePred Closes
  | plain char => inferInstanceAs (Decidable (char = '$'))
  | named _ _ => isTrue trivial
  | numbered _ => isTrue trivial
  | separator => isFalse id

/-- A piece that is not mistaken in front of others: no escape begins at a dollar sign that closes one or
stands for itself, and no separator at a dot that stands for itself. -/
structure Apart (piece : Piece) (back : List Piece) : Prop where
  formed : piece.Formed
  named : piece.Closes → ∀ entry ∈ codes, ¬ entry.1 ++ ['$'] <+: back.flatMap written
  numbered : piece = plain '$' → ¬ BeginsNumber (back.flatMap written)
  dots : piece.meaning = ['.'] → ∀ next ∈ back.head?, next ≠ separator ∧ next.meaning ≠ ['.']

instance (piece : Piece) (back : List Piece) : Decidable (piece.Apart back) :=
  decidable_of_iff (piece.Formed ∧
      (piece.Closes → ∀ entry ∈ codes, ¬ entry.1 ++ ['$'] <+: back.flatMap written) ∧
      (piece = plain '$' → ¬ BeginsNumber (back.flatMap written)) ∧
      (piece.meaning = ['.'] → ∀ next ∈ back.head?, next ≠ separator ∧ next.meaning ≠ ['.']))
    ⟨fun ⟨formed, named', numbered', dots⟩ => ⟨formed, named', numbered', dots⟩,
      fun ⟨formed, named', numbered', dots⟩ => ⟨formed, named', numbered', dots⟩⟩

end Piece

/-- Pieces that can be told apart in the name they are written as. -/
inductive Clear : List Piece → Prop
  | nil : Clear []
  | cons {piece back} : piece.Apart back → Clear back → Clear (piece :: back)

instance decidableClear : DecidablePred Clear
  | [] => isTrue .nil
  | piece :: back =>
      have := decidableClear back
      decidable_of_iff (piece.Apart back ∧ Clear back)
        ⟨fun ⟨apart, clear⟩ => .cons apart clear, fun | .cons apart clear => ⟨apart, clear⟩⟩

theorem Clear.formed {pieces : List Piece} (clear : Clear pieces) : ∀ piece ∈ pieces, piece.Formed := by
  induction clear with
  | nil => simp
  | cons apart _ ih => exact List.forall_mem_cons.mpr ⟨apart.formed, ih⟩

/-- What pieces stand for together, when all of their numbers are code points. -/
def readPieces (pieces : List Piece) : Except Fault (List Char) :=
  if ∀ piece ∈ pieces, piece.InRange then .ok (pieces.flatMap Piece.meaning) else .error (.data .unreadable)

theorem readPieces_cons {piece : Piece} (inRange : piece.InRange) (back : List Piece) :
    readPieces (piece :: back) = (readPieces back).map (piece.meaning ++ ·) := by
  by_cases valid : ∀ piece ∈ back, piece.InRange
  · rw [readPieces, readPieces, if_pos valid, if_pos (List.forall_mem_cons.mpr ⟨inRange, valid⟩)]
    rfl
  · rw [readPieces, readPieces, if_neg valid, if_neg fun all => valid (List.forall_mem_cons.mp all).2]
    rfl

theorem readPieces_outOfRange {piece : Piece} (outOfRange : ¬ piece.InRange) (back : List Piece) :
    readPieces (piece :: back) = .error (.data .unreadable) :=
  if_neg fun all => outOfRange (List.forall_mem_cons.mp all).1

theorem readPieces_eq_error_iff {pieces : List Piece} {fault : Fault} :
    readPieces pieces = .error fault ↔ fault = .data .unreadable ∧ ∃ piece ∈ pieces, ¬ piece.InRange := by
  by_cases valid : ∀ piece ∈ pieces, piece.InRange
  · simpa [readPieces, if_pos valid] using fun _ => valid
  · simp only [readPieces, if_neg valid, Except.error.injEq]
    push Not at valid
    exact ⟨fun same => ⟨same.symm, valid⟩, fun ⟨same, _⟩ => same.symm⟩

theorem codes_eq : escapes.map (fun entry => (entry.1.toList, entry.2.toList)) =
    codes.map fun entry => (wrapped entry.1, [entry.2]) := by
  decide

/-- Codes hold no character that ends one or that an escape stands for. -/
theorem codes_spelled : ∀ entry ∈ codes,
    ('$' ∉ entry.1 ∧ 'u' ∉ entry.1 ∧ ∀ other ∈ codes, other.2 ∉ entry.1) ∧
      entry.2 ≠ '$' ∧ entry.2 ≠ '.' := by
  decide

theorem codes_inj : ∀ entry ∈ codes, ∀ other ∈ codes, entry.1 = other.1 → entry = other := by
  decide

section Replacing

variable {pattern replacement : List Char} {char : Char} {rest text : List Char}

theorem replaceFrom_skip (skip : Nat) (text : List Char) :
    replaceFrom pattern replacement skip text = replaceAll pattern replacement (text.drop skip) := by
  induction skip generalizing text with
  | zero => rfl
  | succ skip ih =>
      cases text with
      | nil => rfl
      | cons char rest => rw [replaceFrom, ih, List.drop_succ_cons]

theorem replaceAll_prefix (rest : List Char) :
    replaceAll (char :: pattern) replacement (char :: pattern ++ rest) =
      replacement ++ replaceAll (char :: pattern) replacement rest := by
  have here : (char :: pattern).isPrefixOf (char :: (pattern ++ rest)) = true :=
    List.isPrefixOf_iff_prefix.mpr (List.prefix_append (char :: pattern) rest)
  rw [List.cons_append, replaceAll, replaceFrom, if_pos here, replaceFrom_skip, List.length_cons,
    Nat.add_sub_cancel, List.drop_left]

theorem replaceAll_cons (other : ¬ pattern <+: char :: rest) :
    replaceAll pattern replacement (char :: rest) = char :: replaceAll pattern replacement rest := by
  have elsewhere : ¬ pattern.isPrefixOf (char :: rest) = true := fun here =>
    other (List.isPrefixOf_iff_prefix.mp here)
  rw [replaceAll, replaceFrom, if_neg elsewhere]
  rfl

/-- Text without the first character of a pattern is kept. -/
theorem replaceAll_solid (solid : char ∉ text) :
    replaceAll (char :: pattern) replacement (text ++ rest) =
      text ++ replaceAll (char :: pattern) replacement rest := by
  induction text with
  | nil => rfl
  | cons first text ih =>
      rw [List.mem_cons, not_or] at solid
      rw [List.cons_append, replaceAll_cons, ih solid.2, List.cons_append]
      exact fun here => solid.1 (List.cons_prefix_cons.mp here).1

end Replacing

section Named

/-- A piece behind the passes for some codes. -/
def Piece.after (done : List (List Char)) : Piece → List Char
  | named code char => if code ∈ done then [char] else wrapped code
  | piece => piece.written

variable {code : List Char} {char : Char} {done : List (List Char)} {pieces back : List Piece}

/-- What holds no character that an escape stands for begins the pieces before the passes as well. -/
theorem prefix_written {word : List Char} (solid : ∀ char ∈ word, ∀ entry ∈ codes, char ≠ entry.2)
    (formed : ∀ piece ∈ pieces, piece.Formed)
    (begins : word <+: pieces.flatMap (Piece.after done)) : word <+: pieces.flatMap Piece.written := by
  induction pieces generalizing word with
  | nil => exact begins
  | cons piece back ih =>
      obtain ⟨first, others⟩ := List.forall_mem_cons.mp formed
      rw [List.flatMap_cons] at begins ⊢
      -- only a decoded escape differs, and its character is none of the word
      by_cases same : piece.after done = piece.written
      · rw [same] at begins
        rcases List.prefix_or_prefix_of_prefix begins (List.prefix_append _ _) with short | ⟨later, rfl⟩
        · exact short.trans (List.prefix_append _ _)
        · rw [List.prefix_append_right_inj] at begins ⊢
          exact ih (fun char member => solid char (List.mem_append_right _ member)) others begins
      · cases piece with
        | named code char =>
            have replaced : Piece.after done (.named code char) = [char] := by
              rw [Piece.after] at same ⊢
              split
              · rfl
              · next fresh => rw [if_neg fresh] at same; exact (same rfl).elim
            rw [replaced] at begins
            cases word with
            | nil => exact List.nil_prefix
            | cons letter word =>
                have isChar := (List.cons_prefix_cons.mp begins).1
                exact (solid letter List.mem_cons_self _ first isChar).elim
        | plain _ => exact (same rfl).elim
        | numbered _ => exact (same rfl).elim
        | separator => exact (same rfl).elim

theorem inner_solid {entry : List Char × Char} (known : entry ∈ codes) :
    ∀ char ∈ entry.1 ++ ['$'], ∀ other ∈ codes, char ≠ other.2 := by
  intro char member other known'
  rcases List.mem_append.mp member with inside | closing
  · rintro rfl
    exact (codes_spelled entry known).1.2.2 other known' inside
  · rw [List.mem_singleton.mp closing]
    exact (codes_spelled other known').2.1.symm

/-- A dollar sign at which no escape of a code begins is kept. -/
theorem replaceAll_dollar {replacement rest : List Char} (apart : ¬ code ++ ['$'] <+: rest) :
    replaceAll (wrapped code) replacement ('$' :: rest) =
      '$' :: replaceAll (wrapped code) replacement rest :=
  replaceAll_cons fun here => apart (List.cons_prefix_cons.mp here).2

/-- What stands in front of the first dollar sign can be told. -/
theorem upTo_dollar {first second rest rest' : List Char} (plain : '$' ∉ first) (plain' : '$' ∉ second)
    (same : first ++ '$' :: rest = second ++ '$' :: rest') : first = second ∧ rest = rest' := by
  induction first generalizing second with
  | nil =>
      cases second with
      | nil => exact ⟨rfl, (List.cons.inj same).2⟩
      | cons char second => exact (plain' ((List.cons.inj same).1 ▸ List.mem_cons_self)).elim
  | cons char first ih =>
      cases second with
      | nil => exact (plain ((List.cons.inj same).1 ▸ List.mem_cons_self)).elim
      | cons other second =>
          obtain ⟨rfl, later⟩ := List.cons.inj same
          obtain ⟨rfl, behind⟩ := ih (fun member => plain (List.mem_cons_of_mem _ member))
            (fun member => plain' (List.mem_cons_of_mem _ member)) later
          exact ⟨rfl, behind⟩

theorem wrapped_append (inner rest : List Char) : wrapped inner ++ rest = '$' :: (inner ++ '$' :: rest) := by
  simp [wrapped]

/-- Escapes of another code are kept. -/
theorem replaceAll_wrapped {replacement rest inner : List Char} (plain : '$' ∉ code)
    (plain' : '$' ∉ inner) (differs : code ≠ inner) (apart : ¬ code ++ ['$'] <+: rest) :
    replaceAll (wrapped code) replacement (wrapped inner ++ rest) =
      wrapped inner ++ replaceAll (wrapped code) replacement rest := by
  have opening : ¬ code ++ ['$'] <+: inner ++ '$' :: rest := by
    rintro ⟨behind, same⟩
    rw [List.append_assoc] at same
    exact differs (upTo_dollar plain plain' same).1
  rw [wrapped_append, replaceAll_dollar opening, wrapped, replaceAll_solid plain', ← wrapped,
    replaceAll_dollar apart, wrapped_append]

theorem dollar_not_mem {entry : List Char × Char} (known : entry ∈ codes) : '$' ∉ entry.1 :=
  (codes_spelled entry known).1.1

theorem dollar_not_mem_number {digits : List Char} (number : IsNumber digits) : '$' ∉ 'u' :: digits := by
  rw [List.mem_cons, not_or]
  exact ⟨by decide, fun member => absurd (number.2.2 '$' member) (by decide)⟩

/-- The pass for a code replaces its escapes and nothing else. -/
theorem replaceAll_named (clear : Clear pieces) (known : (code, char) ∈ codes) :
    replaceAll (wrapped code) [char] (pieces.flatMap (Piece.after done)) =
      pieces.flatMap (Piece.after (done ++ [code])) := by
  induction clear with
  | nil => rfl
  | @cons piece back apart clear ih =>
      have closing (closes : piece.Closes) : ¬ code ++ ['$'] <+: back.flatMap (Piece.after done) :=
        fun here => apart.named closes _ known (prefix_written (inner_solid known) clear.formed here)
      have plainCode : '$' ∉ code := dollar_not_mem known
      rw [List.flatMap_cons, List.flatMap_cons, ← ih]
      cases piece with
      | plain other =>
          by_cases dollar : other = '$'
          · subst dollar
            exact replaceAll_dollar (closing rfl)
          · exact replaceAll_solid fun member => dollar (List.mem_singleton.mp member).symm
      | named other replaced =>
          have known' : (other, replaced) ∈ codes := apart.formed
          have solid : '$' ∉ [replaced] := fun member =>
            (codes_spelled _ known').2.1 (List.mem_singleton.mp member).symm
          by_cases before : other ∈ done
          · simp only [Piece.after, before, List.mem_append, true_or, if_true]
            exact replaceAll_solid solid
          · by_cases same : other = code
            · obtain rfl := (Prod.mk.inj (codes_inj _ known' _ known same)).2
              subst same
              simp only [Piece.after, before, List.mem_append, List.mem_singleton, or_true, if_true,
                if_false]
              exact replaceAll_prefix _
            · simp only [Piece.after, before, same, List.mem_append, List.mem_singleton, or_self, if_false]
              exact replaceAll_wrapped plainCode (dollar_not_mem known') (Ne.symm same)
                (closing trivial)
      | numbered digits =>
          have foreign : code ≠ 'u' :: digits := by
            rintro rfl
            exact (codes_spelled _ known).1.2.1 List.mem_cons_self
          exact replaceAll_wrapped plainCode (dollar_not_mem_number apart.formed) foreign
            (closing trivial)
      | separator => exact replaceAll_solid (show '$' ∉ ['.', '.'] by decide)

theorem replaceAll_codes (clear : Clear pieces) {entries : List (List Char × Char)}
    (known : ∀ entry ∈ entries, entry ∈ codes) :
    entries.foldl (fun text entry => replaceAll (wrapped entry.1) [entry.2] text)
        (pieces.flatMap (Piece.after done)) =
      pieces.flatMap (Piece.after (done ++ entries.map Prod.fst)) := by
  induction entries generalizing done with
  | nil => rw [List.foldl_nil, List.map_nil, List.append_nil]
  | cons entry rest ih =>
      obtain ⟨first, others⟩ := List.forall_mem_cons.mp known
      rw [List.foldl_cons, replaceAll_named clear first, ih others, List.append_assoc]
      rfl

/-- What is left of a piece when its named escape is decoded and its dots are not told apart yet. -/
def Piece.opened : Piece → List Piece
  | named _ char => [plain char]
  | separator => [plain '.', plain '.']
  | piece => [piece]

theorem decodePunctuation_eq_foldl (text : List Char) : decodePunctuation text =
    codes.foldl (fun text entry => replaceAll (wrapped entry.1) [entry.2] text) text := by
  let replaceBy (text : List Char) (entry : List Char × List Char) : List Char :=
    replaceAll entry.1 entry.2 text
  calc decodePunctuation text
      = (escapes.map fun entry => (entry.1.toList, entry.2.toList)).foldl replaceBy text := by
        rw [List.foldl_map]
        rfl
    _ = (codes.map fun entry => (wrapped entry.1, [entry.2])).foldl replaceBy text := by rw [codes_eq]
    _ = codes.foldl (fun text entry => replaceAll (wrapped entry.1) [entry.2] text) text := by
        rw [List.foldl_map]

theorem Piece.after_codes {piece : Piece} (formed : piece.Formed) :
    piece.after (codes.map Prod.fst) = piece.opened.flatMap Piece.written := by
  cases piece with
  | named code char => exact if_pos (List.mem_map_of_mem (show (code, char) ∈ codes from formed))
  | plain _ => rfl
  | numbered digits => exact (List.append_nil _).symm
  | separator => rfl

theorem decodePunctuation_written (clear : Clear pieces) :
    decodePunctuation (pieces.flatMap Piece.written) =
      (pieces.flatMap Piece.opened).flatMap Piece.written := by
  have untouched : pieces.flatMap Piece.written = pieces.flatMap (Piece.after []) := by
    refine List.flatMap_congr fun piece _ => ?_
    cases piece <;> rfl
  rw [decodePunctuation_eq_foldl, untouched, replaceAll_codes clear fun _ known => known,
    List.nil_append, List.flatMap_assoc]
  exact List.flatMap_congr fun piece member => Piece.after_codes (clear.formed piece member)

end Named

section Numbered

variable {digits rest : List Char} {char : Char} {pieces : List Piece}

theorem decodeNumeric_skip (skip : Nat) (text : List Char) :
    decodeNumeric skip text = decodeNumeric 0 (text.drop skip) := by
  induction skip generalizing text with
  | zero => rfl
  | succ skip ih =>
      cases text with
      | nil => simp [decodeNumeric]
      | cons char rest => rw [decodeNumeric, ih, List.drop_succ_cons]

theorem decodeNumeric_number (number : IsNumber digits) (rest : List Char) :
    decodeNumeric 0 (wrapped ('u' :: digits) ++ rest) =
      if (Piece.numbered digits).InRange then
        (decodeNumeric 0 rest).map (Text.spellPoint (hexNumber digits) ++ ·)
      else .error (.data .unreadable) := by
  have behind : ('u' :: digits ++ '$' :: rest).drop (digits.length + 2) = rest := by simp
  rw [wrapped_append, decodeNumeric]
  simp only [numericEscape?_number number]
  rw [decodeNumeric_skip (digits.length + 2), behind]
  rfl

theorem decodeNumeric_cons (apart : char = '$' → ¬ BeginsNumber rest) :
    decodeNumeric 0 (char :: rest) = (decodeNumeric 0 rest).map (char :: ·) := by
  by_cases dollar : char = '$'
  · have none : numericEscape? rest = none := by
      simpa [beginsNumber_iff] using apart dollar
    subst dollar
    rw [decodeNumeric, none]
  · rw [decodeNumeric]
    exact dollar

/-- Characters and numeric escapes that are read off a text from the left. -/
inductive Scanned : List Piece → Prop
  | nil : Scanned []
  | plain {char : Char} {back : List Piece} : (char = '$' → ¬ BeginsNumber (back.flatMap Piece.written)) →
      Scanned back → Scanned (.plain char :: back)
  | numbered {digits : List Char} {back : List Piece} : IsNumber digits → Scanned back →
      Scanned (.numbered digits :: back)

theorem exists_scanned (text : List Char) :
    ∃ pieces, Scanned pieces ∧ pieces.flatMap Piece.written = text := by
  -- an escape takes several characters at once, so the induction is on the length
  induction length : text.length using Nat.strongRecOn generalizing text with
  | ind count ih =>
      subst length
      cases text with
      | nil => exact ⟨[], .nil, rfl⟩
      | cons char rest =>
          by_cases escape : char = '$' ∧ BeginsNumber rest
          · obtain ⟨rfl, digits, behind, number, rfl⟩ := escape
            obtain ⟨pieces, scanned, rfl⟩ := ih behind.length (by simp; omega) behind rfl
            exact ⟨.numbered digits :: pieces, .numbered number scanned, wrapped_append _ _⟩
          · obtain ⟨pieces, scanned, rfl⟩ := ih rest.length (by simp) rest rfl
            exact ⟨.plain char :: pieces, .plain (not_and.mp escape) scanned, rfl⟩

/-- Numeric escapes are decoded together, or not at all when one is out of range. -/
theorem Scanned.decoded (scanned : Scanned pieces) :
    decodeNumeric 0 (pieces.flatMap Piece.written) = readPieces pieces := by
  induction scanned with
  | nil => rfl
  | @plain char back apart scanned ih =>
      have step := decodeNumeric_cons apart
      rw [List.flatMap_cons, Piece.written, List.singleton_append, step, ih]
      exact (readPieces_cons (show (Piece.plain char).InRange from trivial) back).symm
  | @numbered digits back number scanned ih =>
      rw [List.flatMap_cons, Piece.written, decodeNumeric_number number, ih]
      by_cases inRange : (Piece.numbered digits).InRange
      · rw [if_pos inRange, readPieces_cons inRange, Piece.meaning]
      · rw [if_neg inRange, readPieces_outOfRange inRange]

theorem number_solid (number : IsNumber digits) :
    ∀ char ∈ 'u' :: digits ++ ['$'], ∀ entry ∈ codes, char ≠ entry.2 := by
  have foreign : ∀ entry ∈ codes, entry.2 ≠ 'u' ∧ entry.2 ≠ '$' ∧ isLowerHex entry.2 = false := by decide
  rintro char member entry known rfl
  obtain ⟨mark, closing, noDigit⟩ := foreign entry known
  rw [List.cons_append, List.mem_cons, List.mem_append, List.mem_singleton] at member
  obtain isMark | isDigit | isClosing := member
  · exact mark isMark
  · rw [number.2.2 _ isDigit] at noDigit
    cases noDigit
  · exact closing isClosing

/-- No numeric escape begins at a dollar sign of its own only because others were decoded. -/
theorem beginsNumber_written (formed : ∀ piece ∈ pieces, piece.Formed)
    (begins : BeginsNumber ((pieces.flatMap Piece.opened).flatMap Piece.written)) :
    BeginsNumber (pieces.flatMap Piece.written) := by
  obtain ⟨digits, rest, number, same⟩ := begins
  have word : 'u' :: digits ++ ['$'] <+: pieces.flatMap (Piece.after (codes.map Prod.fst)) := by
    refine ⟨rest, ?_⟩
    rw [List.flatMap_congr fun piece member => Piece.after_codes (formed piece member), ← List.flatMap_assoc,
      same, List.append_assoc, List.singleton_append]
  obtain ⟨behind, whole⟩ := prefix_written (number_solid number) formed word
  exact ⟨digits, behind, number, by rw [← whole, List.append_assoc, List.singleton_append]⟩

theorem Clear.scanned (clear : Clear pieces) : Scanned (pieces.flatMap Piece.opened) := by
  induction clear with
  | nil => exact .nil
  | @cons piece back apart clear ih =>
      rw [List.flatMap_cons]
      cases piece with
      | plain char =>
          refine .plain (fun dollar begins => ?_) ih
          subst dollar
          exact apart.numbered rfl (beginsNumber_written clear.formed begins)
      | named code char =>
          refine .plain (fun dollar => ?_) ih
          exact ((codes_spelled _ apart.formed).2.1 dollar).elim
      | numbered digits => exact .numbered apart.formed ih
      | separator =>
          exact .plain (fun dollar => absurd dollar (by decide))
            (.plain (fun dollar => absurd dollar (by decide)) ih)

end Numbered

section Dots

variable {piece : Piece} {pieces : List Piece}

/-- A code point is spelled with a dot only when it is one. -/
theorem spellPoint_dot {point : Nat} (dot : '.' ∈ Text.spellPoint point) :
    Text.spellPoint point = ['.'] := by
  have unmarked : '.' ≠ Text.surrogateMark := by decide
  unfold Text.spellPoint at dot ⊢
  by_cases surrogate : Text.isSurrogate point = true
  · have bounds := (Text.isSurrogate_iff point).mp surrogate
    have shifted := Text.toNat_ofNat_shifted point surrogate
    rw [if_pos surrogate] at dot
    obtain isMark | isShifted := List.mem_pair.mp dot
    · exact (unmarked isMark).elim
    · rw [← isShifted] at shifted
      have dotCode : ('.' : Char).toNat = 46 := rfl
      omega
  · by_cases mark : point = Text.surrogateMark.toNat
    · rw [if_neg surrogate, if_pos mark] at dot
      exact ((List.mem_pair.mp dot).elim unmarked unmarked).elim
    · rw [if_neg surrogate, if_neg mark] at dot ⊢
      rw [List.mem_singleton.mp dot]

theorem Piece.opened_meaning (other : piece ≠ .separator) :
    piece.opened.flatMap Piece.meaning = piece.meaning := by
  cases piece with
  | plain _ => rfl
  | named _ _ => rfl
  | numbered digits => exact List.append_nil _
  | separator => exact (other rfl).elim

theorem Piece.meaning_dot (formed : piece.Formed) (dot : '.' ∈ piece.meaning) :
    piece.meaning = ['.'] := by
  cases piece with
  | plain char => rw [Piece.meaning, List.mem_singleton.mp dot]
  | named code char => exact ((codes_spelled _ formed).2.2 (List.mem_singleton.mp dot).symm).elim
  | numbered digits => exact spellPoint_dot dot
  | separator => exact absurd dot (by decide)

theorem Piece.meaning_ne_nil (piece : Piece) : piece.meaning ≠ [] := by
  cases piece with
  | plain _ => exact List.cons_ne_nil _ _
  | named _ _ => exact List.cons_ne_nil _ _
  | numbered digits =>
      simp only [Piece.meaning, Text.spellPoint]
      split
      · exact List.cons_ne_nil _ _
      · split <;> exact List.cons_ne_nil _ _
  | separator => exact List.cons_ne_nil _ _

/-- Pieces whose first one is neither a separator nor a dot do not begin with a dot. -/
theorem opened_no_dot (formed : ∀ piece ∈ pieces, piece.Formed)
    (apart : ∀ next ∈ pieces.head?, next ≠ .separator ∧ next.meaning ≠ ['.']) :
    ¬ ['.'] <+: (pieces.flatMap Piece.opened).flatMap Piece.meaning := by
  cases pieces with
  | nil => exact fun begins => List.cons_ne_nil _ _ (List.prefix_nil.mp begins)
  | cons next back =>
      obtain ⟨other, noDot⟩ := apart next rfl
      intro begins
      rw [List.flatMap_cons, List.flatMap_append, Piece.opened_meaning other] at begins
      refine noDot (Piece.meaning_dot (formed next List.mem_cons_self) ?_)
      obtain ⟨char, rest, spelled⟩ := List.exists_cons_of_ne_nil next.meaning_ne_nil
      rw [spelled] at begins ⊢
      rw [(List.cons_prefix_cons.mp begins).1]
      exact List.mem_cons_self

/-- The last pass replaces separators and no other dots. -/
theorem Clear.separated (clear : Clear pieces) :
    replaceAll ['.', '.'] [':', ':'] ((pieces.flatMap Piece.opened).flatMap Piece.meaning) =
      pieces.flatMap Piece.meaning := by
  induction clear with
  | nil => rfl
  | @cons piece back apart clear ih =>
      rw [List.flatMap_cons, List.flatMap_append, List.flatMap_cons, ← ih]
      by_cases isSeparator : piece = .separator
      · rw [isSeparator]
        exact replaceAll_prefix _
      · rw [Piece.opened_meaning isSeparator]
        by_cases dot : '.' ∈ piece.meaning
        · have isDot : piece.meaning = ['.'] := Piece.meaning_dot apart.formed dot
          rw [isDot]
          exact replaceAll_cons fun begins =>
            opened_no_dot clear.formed (apart.dots isDot) (List.cons_prefix_cons.mp begins).2
        · exact replaceAll_solid dot

theorem Piece.opened_inRange {piece : Piece} :
    (∀ part ∈ piece.opened, part.InRange) ↔ piece.InRange := by
  cases piece <;> simp [Piece.opened, Piece.InRange]

/-- All passes together give what the pieces of a name stand for. -/
theorem Clear.decoded (clear : Clear pieces) :
    (decodeNumeric 0 (decodePunctuation (pieces.flatMap Piece.written))).map
      (replaceAll ['.', '.'] [':', ':']) = readPieces pieces := by
  have sameRange : (∀ part ∈ pieces.flatMap Piece.opened, part.InRange) ↔
      ∀ piece ∈ pieces, piece.InRange := by
    simp only [List.forall_mem_flatMap, Piece.opened_inRange]
  rw [decodePunctuation_written clear, clear.scanned.decoded]
  by_cases inRange : ∀ piece ∈ pieces, piece.InRange
  · rw [readPieces, readPieces, if_pos (sameRange.mpr inRange), if_pos inRange, Except.map, clear.separated]
  · rw [readPieces, readPieces, if_neg (mt sameRange.mp inRange), if_neg inRange, Except.map]

end Dots

end FlowAlign.Symbol
