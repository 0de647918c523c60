import FlowAlign.Text.Csv.Reader

/-!
Comma separated values are read as they were written: quotes are undone whatever a field holds, and a break
inside of a field ends no line.
-/

namespace FlowAlign.Text.Csv

variable {returns : Bool} {place : Place} {field : List Char} {fields : List String}
  {char : Char} {rest : List Char}

theorem endsLine_of_not_isBreak (plain : isBreak char = false) (more : rest ≠ []) :
    endsLine returns char rest = false := by
  obtain ⟨next, others, rfl⟩ := List.exists_cons_of_ne_nil more
  rw [isBreak, Bool.or_eq_false_iff] at plain
  simp [endsLine, plain.1, plain.2]

/-- Within a line a reader goes on from character to character. -/
theorem readFrom_cons {reader next : Reader} (step : reader.read? char = some next)
    (within : endsLine returns char rest = false) :
    readFrom returns reader (char :: rest) = readFrom returns next rest := by
  simp [readFrom, step, within]

/-- Inside of quotes no line ends. -/
theorem readFrom_cons_quoted {reader next : Reader} (step : reader.read? char = some next)
    (quoted : next.place = .quoted) :
    readFrom returns reader (char :: rest) = readFrom returns next rest := by
  have open_ : next.endLine = next := by simp [Reader.endLine, quoted]
  simp [readFrom, step, open_, quoted]

theorem readFrom_doubleQuotes (text : List Char) (more : rest ≠ []) :
    readFrom returns ⟨.quoted, field, fields⟩ (doubleQuotes text ++ '"' :: rest) =
      readFrom returns ⟨.quote, field ++ text, fields⟩ rest := by
  induction text generalizing field with
  | nil =>
      rw [doubleQuotes, List.nil_append, List.append_nil]
      exact readFrom_cons rfl (endsLine_of_not_isBreak rfl more)
  | cons char text ih =>
      have whole : field ++ char :: text = (field ++ [char]) ++ text := by simp
      rw [doubleQuotes, whole, ← ih]
      by_cases quote : char = '"'
      · subst quote
        rw [if_pos rfl, List.cons_append, List.cons_append,
          readFrom_cons rfl (endsLine_of_not_isBreak rfl (by simp)),
          readFrom_cons_quoted rfl rfl]
        rfl
      · rw [if_neg quote, List.cons_append]
        exact readFrom_cons_quoted (by simp [Reader.read?, quote, Reader.keep]) rfl

/-- A character that may stand outside of quotes. -/
def IsPlain (char : Char) : Prop :=
  isBreak char = false ∧ char ≠ ',' ∧ char ≠ '"'

theorem isPlain_of_not_needsQuotes {text : List Char} (plain : needsQuotes text = false) :
    ∀ char ∈ text, IsPlain char := by
  intro char member
  have clear := List.any_eq_false.mp plain char member
  simp only [Bool.or_eq_true, beq_iff_eq, not_or] at clear
  simp [IsPlain, isBreak, clear]

/-- Whether a field may be read on at a place. -/
def Place.IsOpen (place : Place) : Prop :=
  place ≠ .quoted ∧ place ≠ .ended

theorem read?_plain (plain : IsPlain char) (start : place ≠ .quote) (isOpen : place.IsOpen) :
    Reader.read? ⟨place, field, fields⟩ char = some ⟨.plain, field ++ [char], fields⟩ := by
  obtain ⟨noBreak, noComma, noQuote⟩ := plain
  cases place <;> simp_all [Place.IsOpen, Reader.read?, Reader.beginField, Reader.goOn, Reader.keep]

theorem read?_comma (isOpen : place.IsOpen) : Reader.read? ⟨place, field, fields⟩ ',' =
    some ⟨.field, [], fields ++ [String.ofList field]⟩ := by
  cases place <;> simp_all [Place.IsOpen, Reader.read?, Reader.beginField, Reader.goOn, Reader.save,
    isBreak]

theorem read?_break (isOpen : place.IsOpen) (inside : place ≠ .line) :
    Reader.read? ⟨place, field, fields⟩ '\r' =
      some ⟨.ended, [], fields ++ [String.ofList field]⟩ := by
  cases place <;> simp_all [Place.IsOpen, Reader.read?, Reader.beginField, Reader.goOn, Reader.save,
    isBreak]

theorem readFrom_plain {text : List Char} (plain : ∀ char ∈ text, IsPlain char) (more : rest ≠ []) :
    readFrom returns ⟨.plain, field, fields⟩ (text ++ rest) =
      readFrom returns ⟨.plain, field ++ text, fields⟩ rest := by
  induction text generalizing field with
  | nil => rw [List.nil_append, List.append_nil]
  | cons char text ih =>
      obtain ⟨first, others⟩ := List.forall_mem_cons.mp plain
      have whole : field ++ char :: text = (field ++ [char]) ++ text := by simp
      rw [whole, ← ih others, List.cons_append]
      exact readFrom_cons (read?_plain first (by decide) ⟨by decide, by decide⟩)
        (endsLine_of_not_isBreak first.1 (by simp [more]))

/-- A written field is read up to its end. -/
theorem readFrom_csvField (returns : Bool) (value : String) (start : place = .line ∨ place = .field)
    (more : rest ≠ []) : ∃ behind : Place, behind.IsOpen ∧
      (behind = .line → place = .line ∧ value = "") ∧
      readFrom returns ⟨place, [], fields⟩ (csvField value ++ rest) =
        readFrom returns ⟨behind, value.toList, fields⟩ rest := by
  have isOpen : place.IsOpen ∧ place ≠ .quote := by
    rcases start with rfl | rfl <;> exact ⟨⟨by decide, by decide⟩, by decide⟩
  rw [csvField]
  cases quotes : needsQuotes value.toList with
  | true =>
      have opens : Reader.read? ⟨place, [], fields⟩ '"' = some ⟨.quoted, [], fields⟩ := by
        rcases start with rfl | rfl <;> rfl
      refine ⟨.quote, ⟨by decide, by decide⟩, by simp, ?_⟩
      rw [if_pos rfl, List.cons_append, List.cons_append, readFrom_cons_quoted opens rfl,
        List.append_assoc, List.cons_append, List.nil_append, readFrom_doubleQuotes _ more,
        List.nil_append]
  | false =>
      have plain := isPlain_of_not_needsQuotes quotes
      rw [if_neg Bool.false_ne_true]
      cases chars : value.toList with
      | nil =>
          have empty : value = "" := String.toList_eq_nil_iff.mp chars
          exact ⟨place, isOpen.1, fun isLine => ⟨isLine, empty⟩, rfl⟩
      | cons char text =>
          rw [chars] at plain
          obtain ⟨first, others⟩ := List.forall_mem_cons.mp plain
          refine ⟨.plain, ⟨by decide, by decide⟩, by simp, ?_⟩
          rw [List.cons_append, readFrom_cons (read?_plain first isOpen.2 isOpen.1)
            (endsLine_of_not_isBreak first.1 (by simp [more])), readFrom_plain others more]
          rfl

/-- A line ends behind its break, and the next one is read by a new reader. -/
theorem readFrom_ended : readFrom returns ⟨.ended, [], fields⟩ ('\n' :: rest) =
    (readFrom returns {} rest).map (fields :: ·) := by
  cases later : readFrom returns {} rest with
  | none => simp [readFrom, Reader.read?, isBreak, endsLine, Reader.endLine, later]
  | some lines => simp [readFrom, Reader.read?, isBreak, endsLine, Reader.endLine, later]

theorem endsLine_return : endsLine returns '\r' ('\n' :: rest) = false := by
  simp [endsLine]

theorem readFrom_break (isOpen : place.IsOpen) (inside : place ≠ .line) :
    readFrom returns ⟨place, field, fields⟩ ('\r' :: '\n' :: rest) =
      (readFrom returns {} rest).map ((fields ++ [String.ofList field]) :: ·) := by
  rw [readFrom_cons (read?_break isOpen inside) endsLine_return, readFrom_ended]

theorem readFrom_csvFields (first : String) (others : List String)
    (start : place = .line ∨ place = .field)
    (filled : place = .line → first :: others ≠ [""]) :
    readFrom returns ⟨place, [], fields⟩ (csvFields (first :: others) ++ '\r' :: '\n' :: rest) =
      (readFrom returns {} rest).map ((fields ++ first :: others) :: ·) := by
  induction others generalizing first place fields with
  | nil =>
      obtain ⟨behind, isOpen, untouched, read⟩ := readFrom_csvField returns first start
        (List.cons_ne_nil '\r' ('\n' :: rest))
      have inside : behind ≠ .line := by
        intro isLine
        obtain ⟨isLine, rfl⟩ := untouched isLine
        exact filled isLine rfl
      rw [csvFields, read, readFrom_break isOpen inside, String.ofList_toList]
  | cons second others ih =>
      obtain ⟨behind, isOpen, _, read⟩ := readFrom_csvField returns first start
        (List.cons_ne_nil ',' (csvFields (second :: others) ++ '\r' :: '\n' :: rest))
      rw [csvFields, List.append_assoc, List.cons_append, read,
        readFrom_cons (read?_comma isOpen) (endsLine_of_not_isBreak rfl (by simp)),
        String.ofList_toList, ih second (Or.inr rfl) (by simp), List.append_assoc]
      · rfl
      · simp

theorem readFrom_csvLine (line : List String) : readFrom returns {} (csvLine line ++ rest) =
    (readFrom returns {} rest).map (line :: ·) := by
  rw [csvLine, List.append_assoc]
  split
  · next single =>
      subst single
      rw [List.cons_append, readFrom_cons_quoted rfl rfl]
      exact (readFrom_doubleQuotes [] (by simp)).trans (readFrom_break ⟨by decide, by decide⟩ (by decide))
  · next other =>
      cases line with
      | nil => exact (readFrom_cons rfl endsLine_return).trans readFrom_ended
      | cons first others => exact readFrom_csvFields first others (Or.inl rfl) fun _ => other

/-- What is written as comma separated values is read back, whichever breaks end a line. -/
theorem read_csv (returns : Bool) (lines : List (List String)) :
    read returns (csv lines) = some lines := by
  rw [read, csv, String.toList_ofList]
  induction lines with
  | nil => rfl
  | cons line rest ih => rw [List.flatMap_cons, readFrom_csvLine, ih, Option.map_some]

end FlowAlign.Text.Csv
