import FlowAlign.Proofs.Text.Ascii
import FlowAlign.Text.Json

/-!
The text of a JSON value. It is ASCII whatever texts the value holds, so it always has bytes, and the
text of every item and every field stands in it as a whole.
-/

namespace FlowAlign

namespace Text

theorem isAscii_ofList {chars : List Char} :
    IsAscii (String.ofList chars) ↔ ∀ char ∈ chars, char.toNat < 128 := by
  rw [IsAscii, String.toList_ofList]

theorem isAscii_ite {condition : Prop} [Decidable condition] {first second : String}
    (ascii : condition → IsAscii first) (ascii' : ¬ condition → IsAscii second) :
    IsAscii (if condition then first else second) := by
  split
  · exact ascii ‹_›
  · exact ascii' ‹_›

theorem isAscii_join {parts : List String} (ascii : ∀ part ∈ parts, IsAscii part) :
    IsAscii (String.join parts) := by
  intro char member
  rw [String.toList_join, List.mem_flatMap] at member
  obtain ⟨part, isPart, inside⟩ := member
  exact ascii part isPart char inside

theorem isAscii_intercalate {separator : String} {parts : List String} (ascii : IsAscii separator)
    (ascii' : ∀ part ∈ parts, IsAscii part) : IsAscii (separator.intercalate parts) := by
  induction parts with
  | nil =>
      rw [String.intercalate_nil]
      decide
  | cons part rest ih =>
      have first := ascii' part List.mem_cons_self
      have later := ih fun other member => ascii' other (List.mem_cons_of_mem _ member)
      cases rest with
      | nil => rwa [String.intercalate_singleton]
      | cons other rest =>
          rw [String.intercalate_cons_cons]
          exact (first.append ascii).append later

theorem infix_behind (front text : String) : text.toList <:+: (front ++ text).toList := by
  rw [String.toList_append]
  exact (List.suffix_append _ _).isInfix

theorem infix_intercalate (separator : String) {parts : List String} {part : String}
    (member : part ∈ parts) : part.toList <:+: (separator.intercalate parts).toList := by
  induction parts with
  | nil => cases member
  | cons first rest ih =>
      cases rest with
      | nil => rw [List.mem_singleton.mp member, String.intercalate_singleton]
      | cons next rest =>
          rw [String.intercalate_cons_cons]
          rcases List.mem_cons.mp member with rfl | later
          · rw [String.append_assoc, String.toList_append]
            exact (List.prefix_append _ _).isInfix
          · exact (ih later).trans (infix_behind _ _)

theorem toNat_digitChar_lt (digit : Nat) : digit.digitChar.toNat < 128 := by
  match digit with
  | 0 | 1 | 2 | 3 | 4 | 5 | 6 | 7 | 8 | 9 | 10 | 11 | 12 | 13 | 14 | 15 => decide
  | _ + 16 => simp [Nat.digitChar]

theorem toNat_hexDigit_lt {value : Nat} {char : Char} (member : char ∈ hexDigits value) :
    char.toNat < 128 := by
  induction value using Nat.strongRecOn with
  | ind value ih =>
      rw [hexDigits, Nat.toDigits_eq_if (by omega)] at member
      split at member
      · rw [List.mem_singleton.mp member]
        exact toNat_digitChar_lt value
      · rcases List.mem_append.mp member with earlier | last
        · exact ih (value / 16) (by omega) earlier
        · rw [List.mem_singleton.mp last]
          exact toNat_digitChar_lt _

theorem isAscii_hexField (width value : Nat) : IsAscii (hexField width value) := by
  rw [hexField, isAscii_ofList]
  intro char member
  rcases List.mem_append.mp member with filled | digit
  · rw [List.eq_of_mem_replicate filled]
    decide
  · exact toNat_hexDigit_lt digit

theorem isAscii_int (value : Int) : IsAscii (toString value) := by
  cases value with
  | ofNat number => exact isAscii_repr number
  | negSucc number => exact (show IsAscii "-" by decide).append (isAscii_repr _)

/-- An ASCII text holds no surrogate. -/
theorem encodeUtf8?_ascii {text : String} (ascii : IsAscii text) :
    ∃ bytes, encodeUtf8? text = some bytes := by
  have unmarked : surrogateMark ∉ text.toList := by
    intro member
    have small := ascii _ member
    rw [toNat_surrogateMark] at small
    omega
  have plain : hasSurrogate text = false := by
    rw [hasSurrogate, points_eq_pointsOf, pointsOf_eq_map _ unmarked, List.any_eq_false]
    intro point member
    obtain ⟨char, isChar, rfl⟩ := List.mem_map.mp member
    have small := ascii char isChar
    rw [isSurrogate_iff]
    omega
  exact ⟨_, by rw [encodeUtf8?, plain]; rfl⟩

end Text

namespace Decimal

open Text

theorem mem_shortest_lt {significand : Nat} {exponent : Int} {digit : Nat}
    (member : digit ∈ (shortest significand exponent).digits) : digit < 10 := by
  simp only [shortest] at member
  rw [List.mem_reverse] at member
  have member := (List.dropWhile_sublist _).subset member
  rw [List.mem_reverse, List.mem_map] at member
  obtain ⟨char, isChar, rfl⟩ := member
  have bounds := isDigit_bounds (Nat.isDigit_of_mem_toDigits (by omega) (by omega) isChar)
  omega

theorem isAscii_digitText {digits : List Nat} (small : ∀ digit ∈ digits, digit < 10) :
    IsAscii (digitText digits) := by
  rw [digitText, isAscii_ofList]
  intro char member
  obtain ⟨digit, isDigit, rfl⟩ := List.mem_map.mp member
  have below := small digit isDigit
  rw [toNat_ofNat_point _ (by omega) (by rw [isSurrogate_iff]; omega)]
  omega

theorem isAscii_zeros (count : Nat) : IsAscii (zeros count) := by
  rw [zeros, isAscii_ofList]
  intro char member
  rw [List.eq_of_mem_replicate member]
  decide

/-- A layout whose own texts are ASCII. -/
structure Layout.Plain (layout : Layout) : Prop where
  wholeFraction : IsAscii layout.wholeFraction
  exponentMark : IsAscii layout.exponentMark
  notANumber : IsAscii layout.notANumber
  infinite : IsAscii layout.infinite

namespace Layout

variable {layout : Layout} (plain : layout.Plain)

include plain

theorem isAscii_positional {number : Digits} (small : ∀ digit ∈ number.digits, digit < 10) :
    IsAscii (layout.positional number) := by
  rw [positional]
  split
  · exact ((show IsAscii "0." by decide).append (isAscii_zeros _)).append (isAscii_digitText small)
  · split
    · exact ((isAscii_digitText small).append (isAscii_zeros _)).append plain.wholeFraction
    · refine ((isAscii_digitText ?_).append (show IsAscii "." by decide)).append
        (isAscii_digitText ?_)
      · exact fun digit member => small digit (List.mem_of_mem_take member)
      · exact fun digit member => small digit (List.mem_of_mem_drop member)

theorem isAscii_scientific {number : Digits} (small : ∀ digit ∈ number.digits, digit < 10) :
    IsAscii (layout.scientific number) := by
  have first : IsAscii (digitText (number.digits.take 1)) :=
    isAscii_digitText fun digit member => small digit (List.mem_of_mem_take member)
  have fraction : IsAscii (if (number.digits.drop 1).isEmpty then "" else
      "." ++ digitText (number.digits.drop 1)) := by
    refine isAscii_ite (fun _ => by decide) fun _ => ?_
    exact (show IsAscii "." by decide).append
      (isAscii_digitText fun digit member => small digit (List.mem_of_mem_drop member))
  have sign : IsAscii (if number.point - 1 < 0 then "-" else "+") :=
    isAscii_ite (fun _ => by decide) fun _ => by decide
  exact ((((first.append fraction).append plain.exponentMark).append sign).append
    (isAscii_zeros _)).append (isAscii_repr _)

theorem isAscii_laidOut {number : Digits} (small : ∀ digit ∈ number.digits, digit < 10) :
    IsAscii (if layout.lowestPoint ≤ number.point ∧ number.point ≤ layout.highestPoint then
      layout.positional number else layout.scientific number) :=
  isAscii_ite (fun _ => isAscii_positional plain small) fun _ => isAscii_scientific plain small

theorem isAscii_render (bits : UInt64) : IsAscii (layout.render bits) := by
  have sign : ∀ negative : Bool, IsAscii (if negative then "-" else "") := by
    decide
  unfold render
  split
  · exact plain.notANumber
  · exact (sign _).append plain.infinite
  · rename_i negative significand exponent _
    have small : ∀ digit ∈ (if significand = 0 then { digits := [0], point := 1 }
        else shortest significand exponent : Digits).digits, digit < 10 := by
      intro digit member
      split at member
      · simp_all
      · exact mem_shortest_lt member
    exact (sign _).append (isAscii_laidOut plain small)

end Layout

end Decimal

namespace Json

open Text

theorem numberLayout_plain : numberLayout.Plain :=
  ⟨by decide, by decide, by decide, by decide⟩

theorem isAscii_unitEscape (unit : Nat) : IsAscii (unitEscape unit) :=
  (show IsAscii "\\u" by decide).append (isAscii_hexField 4 unit)

theorem isAscii_escapePoint (point : Nat) : IsAscii (escapePoint point) := by
  unfold escapePoint
  iterate 7 refine isAscii_ite (fun _ => by decide) fun _ => ?_
  refine isAscii_ite (fun printable => ?_) fun _ => ?_
  · intro char member
    rw [String.toList_singleton, List.mem_singleton] at member
    rw [member, toNat_ofNat_point _ (by omega) (by rw [isSurrogate_iff]; omega)]
    omega
  · refine isAscii_ite (fun _ => isAscii_unitEscape point) fun _ => ?_
    exact (isAscii_unitEscape _).append (isAscii_unitEscape _)

theorem isAscii_quoteText (text : String) : IsAscii (quoteText text) := by
  have quote : IsAscii "\"" := by decide
  refine (quote.append (isAscii_join ?_)).append quote
  intro part member
  obtain ⟨point, _, rfl⟩ := List.mem_map.mp member
  exact isAscii_escapePoint point

theorem isAscii_leaf (value : Json) : IsAscii value.leaf := by
  cases value with
  | null => decide
  | bool value => cases value <;> decide
  | int value => exact isAscii_int value
  | float value => exact Decimal.Layout.isAscii_render numberLayout_plain _
  | text value => exact isAscii_quoteText value
  | list items => exact (by decide : IsAscii "[]")
  | object fields => exact (by decide : IsAscii "\x7b\x7d")

theorem isAscii_lineStart (depth : Nat) : IsAscii (lineStart depth) :=
  (show IsAscii "\n" by decide).append (isAscii_blanks (2 * depth))

theorem isAscii_enclose (depth : Nat) {opening closing : String} {lines : List String}
    (ascii : IsAscii opening) (ascii' : IsAscii closing) (all : ∀ line ∈ lines, IsAscii line) :
    IsAscii (enclose depth opening closing lines) := by
  rw [enclose]
  split
  · exact ascii.append ascii'
  · have separated := isAscii_intercalate
      ((show IsAscii "," by decide).append (isAscii_lineStart (depth + 1))) all
    exact (((ascii.append (isAscii_lineStart _)).append separated).append
      (isAscii_lineStart _)).append ascii'

mutual

theorem isAscii_indented (depth : Nat) : ∀ value : Json, IsAscii (value.indented depth)
  | list items => by
      rw [indented]
      exact isAscii_enclose depth (by decide) (by decide) (isAscii_indentedItems (depth + 1) items)
  | object fields => by
      rw [indented]
      exact isAscii_enclose depth (by decide) (by decide)
        (isAscii_indentedFields (depth + 1) fields)
  | null => isAscii_leaf null
  | bool value => isAscii_leaf (bool value)
  | int value => isAscii_leaf (int value)
  | float value => isAscii_leaf (float value)
  | text value => isAscii_leaf (text value)

theorem isAscii_indentedItems (depth : Nat) :
    ∀ items : List Json, ∀ line ∈ indentedItems depth items, IsAscii line
  | [], line, member => by cases member
  | item :: rest, line, member => by
      rw [indentedItems] at member
      rcases List.mem_cons.mp member with rfl | later
      · exact isAscii_indented depth item
      · exact isAscii_indentedItems depth rest line later

theorem isAscii_indentedFields (depth : Nat) :
    ∀ fields : List (String × Json), ∀ line ∈ indentedFields depth fields, IsAscii line
  | [], line, member => by cases member
  | (name, value) :: rest, line, member => by
      rw [indentedFields] at member
      rcases List.mem_cons.mp member with rfl | later
      · exact ((isAscii_quoteText name).append (by decide)).append (isAscii_indented depth value)
      · exact isAscii_indentedFields depth rest line later

end

theorem mem_indentedItems (depth : Nat) {items : List Json} {item : Json} (member : item ∈ items) :
    item.indented depth ∈ indentedItems depth items := by
  induction items with
  | nil => cases member
  | cons first rest ih =>
      rw [indentedItems]
      rcases List.mem_cons.mp member with rfl | later
      · exact List.mem_cons_self
      · exact List.mem_cons_of_mem _ (ih later)

theorem mem_indentedFields (depth : Nat) {fields : List (String × Json)} {name : String}
    {value : Json} (member : (name, value) ∈ fields) :
    quoteText name ++ ": " ++ value.indented depth ∈ indentedFields depth fields := by
  induction fields with
  | nil => cases member
  | cons first rest ih =>
      rw [indentedFields]
      rcases List.mem_cons.mp member with rfl | later
      · exact List.mem_cons_self
      · exact List.mem_cons_of_mem _ (ih later)

theorem infix_enclose (depth : Nat) (opening closing : String) {lines : List String} {line : String}
    (member : line ∈ lines) :
    line.toList <:+: (enclose depth opening closing lines).toList := by
  have filled : lines.isEmpty = false := List.isEmpty_eq_false_iff_exists_mem.mpr ⟨line, member⟩
  have inside := infix_intercalate ("," ++ lineStart (depth + 1)) member
  simp only [enclose, filled, Bool.false_eq_true, if_false, String.toList_append, List.append_assoc]
  exact (inside.trans (List.prefix_append _ _).isInfix).trans
    ((List.suffix_append _ _).isInfix.trans (List.suffix_append _ _).isInfix)

/-- Every item of a list is written in it. -/
theorem infix_list (depth : Nat) {items : List Json} {item : Json} (member : item ∈ items) :
    (item.indented (depth + 1)).toList <:+: ((list items).indented depth).toList := by
  rw [indented]
  exact infix_enclose depth _ _ (mem_indentedItems (depth + 1) member)

/-- Every field of an object is written in it, behind its name. -/
theorem infix_object (depth : Nat) {fields : List (String × Json)} {name : String} {value : Json}
    (member : (name, value) ∈ fields) :
    (quoteText name ++ ": " ++ value.indented (depth + 1)).toList <:+:
      ((object fields).indented depth).toList := by
  rw [indented]
  exact infix_enclose depth _ _ (mem_indentedFields (depth + 1) member)

end Json

end FlowAlign
