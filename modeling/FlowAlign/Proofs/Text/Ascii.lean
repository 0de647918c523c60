import Mathlib
import FlowAlign.Text.Affix
import FlowAlign.Text.Numeral
import FlowAlign.Text.Utf8

/-!
Texts of ASCII characters. They are read back from their bytes, blanks behind them are trimmed off,
and a number is read back from its digits.
-/

namespace FlowAlign.Text

def IsAscii (text : String) : Prop :=
  ∀ char ∈ text.toList, char.toNat < 128

instance (text : String) : Decidable (IsAscii text) :=
  decidable_of_iff (text.toList.all (·.toNat < 128) = true) (by simp [IsAscii])

def asciiBytes (text : String) : List UInt8 :=
  text.toList.map fun char => UInt8.ofNat char.toNat

@[simp] theorem length_asciiBytes (text : String) :
    (asciiBytes text).length = text.toList.length := by
  simp [asciiBytes]

theorem asciiBytes_append (first second : String) :
    asciiBytes (first ++ second) = asciiBytes first ++ asciiBytes second := by
  simp [asciiBytes]

theorem IsAscii.append {first second : String} (ascii : IsAscii first) (ascii' : IsAscii second) :
    IsAscii (first ++ second) := by
  intro char member
  rw [String.toList_append, List.mem_append] at member
  exact member.elim (ascii char) (ascii' char)

theorem toNat_asciiByte {char : Char} (ascii : char.toNat < 128) :
    (UInt8.ofNat char.toNat).toNat = char.toNat := by
  rw [UInt8.toNat_ofNat']
  omega

theorem spellPoint_ascii {point : Nat} (ascii : point < 128) :
    spellPoint point = [Char.ofNat point] := by
  have plain : isSurrogate point = false := by
    rw [Bool.eq_false_iff, ne_eq, isSurrogate_iff]
    omega
  have unmarked : point ≠ surrogateMark.toNat := by
    rw [toNat_surrogateMark]
    omega
  simp [spellPoint, plain, unmarked]

/-- ASCII characters are their own code points. -/
theorem ofPoints_ascii {text : String} (ascii : IsAscii text) :
    ofPoints ((asciiBytes text).map UInt8.toNat) = text := by
  have spelled : ((asciiBytes text).map UInt8.toNat).flatMap spellPoint = text.toList := by
    simp only [asciiBytes, List.map_map, List.flatMap_map]
    have single : ∀ char ∈ text.toList,
        spellPoint ((UInt8.toNat ∘ fun char => UInt8.ofNat char.toNat) char) = [char] := by
      intro char member
      rw [Function.comp_apply, toNat_asciiByte (ascii char member),
        spellPoint_ascii (ascii char member), Char.ofNat_toNat]
    rw [List.flatMap_congr single]
    exact List.flatMap_singleton' _
  rw [ofPoints, spelled, String.ofList_toList]

theorem mem_asciiBytes_lt {text : String} (ascii : IsAscii text) {byte : UInt8}
    (member : byte ∈ asciiBytes text) : byte < 128 := by
  obtain ⟨char, isChar, rfl⟩ := List.mem_map.mp member
  rw [UInt8.lt_iff_toNat_lt, toNat_asciiByte (ascii char isChar)]
  exact ascii char isChar

theorem decodeAscii_asciiBytes {text : String} (ascii : IsAscii text) :
    decodeAscii (asciiBytes text) = text := by
  have points : (asciiBytes text).map (fun byte => if byte < 128 then byte.toNat else replacement) =
      (asciiBytes text).map UInt8.toNat := by
    apply List.map_congr_left
    intro byte member
    rw [if_pos (mem_asciiBytes_lt ascii member)]
  rw [decodeAscii, points, ofPoints_ascii ascii]

theorem decodeAscii?_asciiBytes {text : String} (ascii : IsAscii text) :
    decodeAscii? (asciiBytes text) = some text := by
  have all : (asciiBytes text).all (· < 128) = true := by
    simpa using fun byte member => mem_asciiBytes_lt ascii member
  rw [decodeAscii?, if_pos all, decodeAscii_asciiBytes ascii]

theorem decodeFrom_ascii {bytes : List UInt8} (ascii : ∀ byte ∈ bytes, byte < 128) :
    decodeFrom [] 0 bytes = bytes.map UInt8.toNat := by
  induction bytes with
  | nil => rfl
  | cons byte rest ih =>
      have first : byte.toNat < 128 := UInt8.lt_iff_toNat_lt.mp (ascii byte List.mem_cons_self)
      have single : sequenceLength byte.toNat = 1 := by
        rw [sequenceLength, if_pos first]
      rw [decodeFrom]
      simp only [single, List.map_cons]
      rw [ih fun other member => ascii other (List.mem_cons_of_mem _ member)]

theorem decodeUtf8_asciiBytes {text : String} (ascii : IsAscii text) :
    decodeUtf8 (asciiBytes text) = text := by
  rw [decodeUtf8, decodeFrom_ascii fun byte member => mem_asciiBytes_lt ascii member,
    ofPoints_ascii ascii]

section Trimming

/-- The end of a list is dropped up to the last item that stays. -/
theorem rdropWhile_append {β : Type} {test : β → Bool} {kept dropped : List β}
    (last : ∀ item, kept.getLast? = some item → test item = false)
    (all : ∀ item ∈ dropped, test item = true) : (kept ++ dropped).rdropWhile test = kept := by
  rw [List.rdropWhile, List.reverse_append, List.dropWhile_append_of_pos]
  · rw [List.getLast?_eq_head?_reverse] at last
    cases reversed : kept.reverse with
    | nil => simpa using reversed.symm
    | cons first rest =>
        rw [reversed] at last
        rw [List.dropWhile_cons_of_neg (by simp [last first rfl]), ← reversed, List.reverse_reverse]
  · intro item member
    exact all item (List.mem_reverse.mp member)

theorem dropEndWhile_append {test : Char → Bool} {kept dropped : List Char}
    (last : ∀ char, kept.getLast? = some char → test char = false)
    (all : ∀ char ∈ dropped, test char = true) : dropEndWhile test (kept ++ dropped) = kept :=
  rdropWhile_append last all

def blanks (count : Nat) : String :=
  String.ofList (List.replicate count ' ')

theorem isAscii_blanks (count : Nat) : IsAscii (blanks count) := by
  intro char member
  rw [blanks, String.toList_ofList] at member
  rw [List.eq_of_mem_replicate member]
  decide

theorem mem_blanks {count : Nat} {char : Char} (member : char ∈ (blanks count).toList) :
    isBlank char = true := by
  rw [blanks, String.toList_ofList] at member
  rw [List.eq_of_mem_replicate member]
  decide

theorem trimEnd_blanks {text : String}
    (last : ∀ char, text.toList.getLast? = some char → isBlank char = false) (count : Nat) :
    trimEnd (text ++ blanks count) = text := by
  rw [trimEnd, String.toList_append, dropEndWhile_append last fun _ member => mem_blanks member,
    String.ofList_toList]

theorem trim_blanks {text : String} (solid : ∀ char ∈ text.toList, isBlank char = false)
    (filled : text.toList ≠ []) (count : Nat) : trim (text ++ blanks count) = text := by
  obtain ⟨first, rest, chars⟩ := List.exists_cons_of_ne_nil filled
  have front : (text ++ blanks count).toList.dropWhile isBlank = (text ++ blanks count).toList := by
    rw [String.toList_append, chars, List.cons_append, List.dropWhile_cons_of_neg]
    simpa using solid first (by simp [chars])
  have back := trimEnd_blanks (fun char isLast => solid char (List.mem_of_getLast? isLast)) count
  rw [trim, front]
  exact back

end Trimming

section Numerals

theorem isDigit_bounds {char : Char} (digit : char.isDigit = true) :
    48 ≤ char.toNat ∧ char.toNat ≤ 57 := by
  simp only [Char.isDigit, Bool.and_eq_true, decide_eq_true_eq] at digit
  exact ⟨UInt32.le_iff_toNat_le.mp digit.1, UInt32.le_iff_toNat_le.mp digit.2⟩

theorem asciiDigit_of_isDigit {char : Char} (digit : char.isDigit = true) :
    asciiDigit char = char := by
  obtain ⟨lower, upper⟩ := isDigit_bounds digit
  have value : digitValue? char = some (char.toNat - 48) := by
    rw [digitValue?, digitZeros, List.find?_cons_of_pos]
    · rfl
    · simp [lower, show char.toNat < 58 by omega]
  rw [asciiDigit, value]
  simp only [Nat.add_sub_cancel' lower, Char.ofNat_toNat]

theorem not_isBlank_of_isDigit {char : Char} (digit : char.isDigit = true) :
    isBlank char = false := by
  obtain ⟨lower, upper⟩ := isDigit_bounds digit
  simp only [isBlank, inRanges, blankRanges, List.any_cons, List.any_nil, Bool.or_false,
    Bool.or_eq_false_iff, Bool.and_eq_false_iff, decide_eq_false_iff_not]
  omega

theorem dropLowLines_digits {digits : List Char} (all : ∀ char ∈ digits, char.isDigit = true) :
    ∀ before, dropLowLines before digits = some digits := by
  induction digits with
  | nil => intro before; rfl
  | cons digit rest ih =>
      intro before
      have isDigit := all digit List.mem_cons_self
      have plain : digit ≠ '_' := by
        rintro rfl
        simp at isDigit
      rw [dropLowLines, ih (fun other member => all other (List.mem_cons_of_mem _ member))]
      · rfl
      · simp [plain]
      · simp [plain]

theorem isDigit_of_mem_repr {number : Nat} {char : Char} (member : char ∈ number.repr.toList) :
    char.isDigit = true := by
  rw [Nat.toList_repr] at member
  exact Nat.isDigit_of_mem_toDigits (by omega) (by omega) member

theorem isAscii_repr (number : Nat) : IsAscii number.repr := by
  intro char member
  have bounds := isDigit_bounds (isDigit_of_mem_repr member)
  omega

theorem repr_ne_nil (number : Nat) : number.repr.toList ≠ [] := by
  rw [Nat.toList_repr]
  exact Nat.toDigits_ne_nil

theorem decimalValue_repr (number : Nat) : decimalValue number.repr.toList = number := by
  rw [Nat.toList_repr]
  exact Nat.ofDigitChars_toDigits (by omega) (by omega)

theorem numeralChars?_repr (number : Nat) :
    numeralChars? number.repr = some number.repr.toList := by
  have digits : ∀ char ∈ number.repr.toList, char.isDigit = true :=
    fun _ member => isDigit_of_mem_repr member
  have solid : ∀ char ∈ number.repr.toList, isNumeralBlank char = false := by
    intro char member
    simp [isNumeralBlank, not_isBlank_of_isDigit (digits char member)]
  have front : number.repr.toList.dropWhile isNumeralBlank = number.repr.toList := by
    obtain ⟨first, rest, chars⟩ := List.exists_cons_of_ne_nil (repr_ne_nil number)
    rw [chars, List.dropWhile_cons_of_neg]
    simpa using solid first (by simp [chars])
  have back : dropEndWhile isNumeralBlank number.repr.toList = number.repr.toList := by
    have kept := dropEndWhile_append (fun char isLast => solid char (List.mem_of_getLast? isLast))
      (List.forall_mem_nil _)
    rwa [List.append_nil] at kept
  have same : number.repr.toList.map asciiDigit = number.repr.toList := by
    rw [List.map_congr_left fun char member => asciiDigit_of_isDigit (digits char member)]
    exact List.map_id _
  rw [numeralChars?, front, back, same, dropLowLines_digits digits]

theorem splitSign_digit {first : Char} (digit : first.isDigit = true) (rest : List Char) :
    splitSign (first :: rest) = (false, first :: rest) := by
  refine splitSign.eq_3 _ ?_ ?_
  · rintro _ chars
    rw [List.cons.injEq] at chars
    rw [chars.1] at digit
    exact absurd digit (by decide)
  · rintro _ chars
    rw [List.cons.injEq] at chars
    rw [chars.1] at digit
    exact absurd digit (by decide)

/-- A number is read back from its digits, as long as there are not too many. -/
theorem readInt?_repr {number : Nat} (short : number.repr.toList.length ≤ maxDigits) :
    readInt? number.repr = some (number : Int) := by
  obtain ⟨first, rest, chars⟩ := List.exists_cons_of_ne_nil (repr_ne_nil number)
  have digits : ∀ char ∈ number.repr.toList, char.isDigit = true :=
    fun _ member => isDigit_of_mem_repr member
  have unsigned : splitSign number.repr.toList = (false, number.repr.toList) := by
    rw [chars]
    exact splitSign_digit (digits first (by simp [chars])) rest
  have accepted : (number.repr.toList.isEmpty || !number.repr.toList.all Char.isDigit ||
      decide (maxDigits < number.repr.toList.length)) = false := by
    have filled : number.repr.toList.isEmpty = false := by simp [chars]
    have all : number.repr.toList.all Char.isDigit = true := by simpa using digits
    rw [filled, all, decide_eq_false (Nat.not_lt.mpr short)]
    rfl
  simp only [readInt?, numeralChars?_repr, Option.bind_eq_bind, Option.bind_some, unsigned, accepted,
    decimalValue_repr]
  rfl

theorem length_repr_le {number width : Nat} (positive : 0 < width) (below : number < 10 ^ width) :
    number.repr.toList.length ≤ width := by
  rw [Nat.toList_repr]
  exact (Nat.length_toDigits_le_iff (by omega) positive).mpr below

end Numerals

end FlowAlign.Text
