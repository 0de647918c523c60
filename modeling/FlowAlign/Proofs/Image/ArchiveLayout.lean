import Mathlib
import FlowAlign.Proofs.Image.Archive
import FlowAlign.Proofs.Text.Ascii

/-!
Archives as they are written. Every member is a record: a header, a body and a byte of padding behind
an odd one. A name stands in the header, in a table of long names written before, or in front of the
content. Reading gives back the members that were written, in order, as long as no member is called
`#1` and has its name closed by a slash: this is taken for the announcement of a name of no length.
-/

namespace FlowAlign.Archive

open Text

/-- How a name is written: in its field, maybe with a slash behind it, as a place in the table of long
names, or in front of the content with zeros behind it. -/
inductive Spelling where
  | short (slash : Bool)
  | listed (place : Nat)
  | leading (zeros : Nat)

/-- The bytes of a record that are free: dates, owners and mode in its header, and its padding. -/
structure Frame where
  details : Bytes
  padding : UInt8
  full : details.length = 32

/-- Records of an archive. A symbol table is an entry whose name says so. -/
inductive Item where
  | entry (found : Member) (spelling : Spelling) (frame : Frame)
  | longNames (names : List String) (frame : Frame)

section Layout

def tableBytes (names : List String) : Bytes :=
  names.flatMap fun name => asciiBytes name ++ [47, 10]

def Spelling.field (names : List String) (name : String) : Spelling → String
  | .short slash => if slash then name ++ "/" else name
  | .listed place => "/" ++ (tableBytes (names.take place)).length.repr
  | .leading zeros => "#1/" ++ (name.toList.length + zeros).repr

def Spelling.body (found : Member) : Spelling → Bytes
  | .short _ => found.content
  | .listed _ => found.content
  | .leading zeros => asciiBytes found.name ++ List.replicate zeros 0 ++ found.content

def Item.field (names : List String) : Item → String
  | .entry found spelling _ => spelling.field names found.name
  | .longNames _ _ => "//"

def Item.body : Item → Bytes
  | .entry found spelling _ => spelling.body found
  | .longNames names _ => tableBytes names

def Item.frame : Item → Frame
  | .entry _ _ frame => frame
  | .longNames _ frame => frame

/-- The long names that later records can refer to. -/
def Item.table (names : List String) : Item → List String
  | .entry _ _ _ => names
  | .longNames names _ => names

def header (frame : Frame) (field : String) (size : Nat) : Bytes :=
  fieldBytes 16 field ++ frame.details ++ fieldBytes 10 size.repr ++ [0x60, 0x0a]

def padding (frame : Frame) (body : Bytes) : Bytes :=
  List.replicate (body.length % 2) frame.padding

def record (frame : Frame) (field : String) (body : Bytes) : Bytes :=
  header frame field body.length ++ body ++ padding frame body

def encode : List String → List Item → Bytes
  | _, [] => []
  | names, item :: rest =>
      record item.frame (item.field names) item.body ++ encode (item.table names) rest

def archive (items : List Item) : Bytes :=
  Magic.archive ++ encode [] items

end Layout

section Written

/-- Names that every spelling can carry. -/
@[mk_iff]
structure Plain (name : String) : Prop where
  ascii : IsAscii name
  solid : ∀ char ∈ name.toList, char ≠ '\n' ∧ char ≠ '\x00'
  last : ∀ char ∈ name.toList.getLast?, char ≠ '/' ∧ isBlank char = false

instance (name : String) : Decidable (Plain name) :=
  decidable_of_iff (IsAscii name ∧
      name.toList.all (fun char => char ≠ '\n' && char ≠ '\x00') = true ∧
      name.toList.getLast?.all (fun char => char ≠ '/' && !isBlank char) = true)
    (by cases ending : name.toList.getLast? <;> simp [plain_iff, ending])

/-- Whether a name can be written in a way. A name in its field has to fit, and must not look like a
reference, unless it is the name of a symbol table. -/
def Spelling.Suits (names : List String) (name : String) : Spelling → Prop
  | .short slash => ((Spelling.short slash).field names name).toList.length ≤ 16 ∧
      (name ∈ symbolTables ∨ startsWith name "/" = false ∧ startsWith name "#1/" = false)
  | .listed place => names[place]? = some name
  | .leading _ => True

/-- Records that can follow the long names met so far. Their sizes have at most ten digits. -/
inductive Written : List String → List Item → Prop
  | nil {names} : Written names []
  | entry {names found spelling frame rest} : Plain found.name → spelling.Suits names found.name →
      (spelling.body found).length < 10 ^ 10 → Written names rest →
      Written names (.entry found spelling frame :: rest)
  | longNames {names table frame rest} : (tableBytes table).length < 10 ^ 10 →
      Written table rest → Written names (.longNames table frame :: rest)

/-- The member that a record holds, if it is no table. -/
def Item.member? : Item → Option Member
  | .entry found _ _ => if found.name ∈ symbolTables then none else some found
  | .longNames _ _ => none

/-- Whether a name that is written in its field looks like the announcement of a name in front of the
content. -/
def Item.isMisread : Item → Bool
  | .entry found (.short true) _ => found.name = "#1"
  | _ => false

end Written

/-- Texts that a name field holds without a loss. -/
structure Fits (field : String) : Prop where
  ascii : IsAscii field
  short : field.toList.length ≤ 16
  last : ∀ char, field.toList.getLast? = some char → isBlank char = false

section Fields

variable {field : String}

theorem fieldBytes_eq (width : Nat) (text : String) :
    fieldBytes width text = asciiBytes (text ++ blanks (width - text.toList.length)) := by
  rw [fieldBytes, asciiBytes, String.toList_append, List.map_append, blanks, String.toList_ofList,
    List.map_replicate]
  rfl

theorem length_fieldBytes {width : Nat} {text : String} (fits : text.toList.length ≤ width) :
    (fieldBytes width text).length = width := by
  simp only [fieldBytes, List.length_append, List.length_map, List.length_replicate]
  omega

theorem nameField_header (frame : Frame) (fits : Fits field) (size : Nat) :
    nameField (header frame field size) = field := by
  have front : (header frame field size).take 16 = fieldBytes 16 field := by
    rw [header, List.append_assoc, List.append_assoc, List.take_left' (length_fieldBytes fits.short)]
  rw [nameField, front, fieldBytes_eq,
    decodeAscii_asciiBytes (fits.ascii.append (isAscii_blanks _)), trimEnd_blanks fits.last]

theorem sizeField?_header (frame : Frame) (fits : Fits field) {size : Nat}
    (below : size < 10 ^ 10) : sizeField? (header frame field size) = some (size : Int) := by
  have digits : size.repr.toList.length ≤ 10 := length_repr_le (by omega) below
  have front : (fieldBytes 16 field ++ frame.details).length = 48 := by
    rw [List.length_append, length_fieldBytes fits.short, frame.full]
  have middle : ((header frame field size).drop 48).take 10 = fieldBytes 10 size.repr := by
    rw [header, List.append_assoc, List.drop_left' front, List.take_left' (length_fieldBytes digits)]
  have solid : ∀ char ∈ size.repr.toList, isBlank char = false :=
    fun char member => not_isBlank_of_isDigit (isDigit_of_mem_repr member)
  rw [sizeField?, middle, fieldBytes_eq,
    decodeAscii?_asciiBytes ((isAscii_repr size).append (isAscii_blanks _)), Option.bind_eq_bind,
    Option.bind_some, trim_blanks solid (repr_ne_nil size)]
  exact readInt?_repr (digits.trans (by decide))

theorem length_header (frame : Frame) (fits : Fits field) {size : Nat}
    (below : size < 10 ^ 10) : (header frame field size).length = headerSize := by
  have digits : size.repr.toList.length ≤ 10 := length_repr_le (by omega) below
  simp only [header, List.length_append, length_fieldBytes fits.short, length_fieldBytes digits,
    frame.full]
  rfl

theorem drop_header (frame : Frame) (fits : Fits field) {size : Nat}
    (below : size < 10 ^ 10) : (header frame field size).drop 58 = [0x60, 0x0a] := by
  have whole := length_header frame fits below
  rw [header, List.length_append, headerSize, List.length_cons, List.length_singleton] at whole
  rw [header, List.drop_left' (by omega)]

end Fields

/-- A step over a record looks at its field and its body, and leads to the place behind it. -/
theorem step_record {frame : Frame} {field : String} {body : Bytes} (fits : Fits field)
    (below : body.length < 10 ^ 10) (before after longNames : Bytes) :
    step (before ++ record frame field body ++ after)
        { offset := before.length, longNames := longNames } =
      classify field body
        { offset := (before ++ record frame field body).length, longNames := longNames } := by
  have whole := length_header frame fits below
  have atHeader : headerAt (before ++ record frame field body ++ after) before.length =
      header frame field body.length := by
    have cut := Position.slice_append before (header frame field body.length)
      (body ++ padding frame body ++ after)
    rw [whole] at cut
    simpa only [headerAt, record, List.append_assoc] using cut
  have atBody : Position.slice (before ++ record frame field body ++ after)
      (before.length + headerSize) (before.length + headerSize + body.length) = body := by
    have cut := Position.slice_append (before ++ header frame field body.length) body
      (padding frame body ++ after)
    rw [List.length_append, whole, Nat.cast_add] at cut
    simpa only [record, List.append_assoc] using cut
  have behind : ((before ++ record frame field body).length : Int) =
      before.length + headerSize + body.length + (body.length : Int) % 2 := by
    simp only [record, padding, List.length_append, whole, List.length_replicate]
    omega
  have headed : Headed (before ++ record frame field body ++ after) before.length body.length := by
    refine ⟨?_, ?_, ?_⟩
    · rw [List.length_append, Nat.cast_add, behind]
      omega
    · rw [atHeader, drop_header frame fits below]
    · rw [sizeAt?, atHeader, sizeField?_header frame fits below]
  rw [step_of_headed headed, atHeader, nameField_header frame fits, atBody, behind]

section Classify

variable {name : String}

theorem startsWith_append (start rest : String) : startsWith (start ++ rest) start = true := by
  simp [startsWith]

theorem dropStart_append (start rest : String) :
    dropStart start.toList.length (start ++ rest) = rest := by
  rw [dropStart, String.toList_append, List.drop_left, String.ofList_toList]

/-- Only one name gets to start with a text that ends in a slash when a slash is put behind it. -/
theorem startsWith_slash (start : String) (unlike : startsWith name (start ++ "/") = false)
    (other : name ≠ start) : startsWith (name ++ "/") (start ++ "/") = false := by
  rw [Bool.eq_false_iff, startsWith, ne_eq, List.isPrefixOf_iff_prefix] at unlike ⊢
  intro isStart
  have closed : (name ++ "/").toList = name.toList ++ ['/'] := String.toList_append
  rw [closed] at isStart
  rcases List.prefix_concat_iff.mp isStart with whole | inside
  · rw [String.toList_append] at whole
    exact other (String.toList_inj.mp (List.append_cancel_right whole)).symm
  · exact unlike inside

theorem Plain.dropSlashes (plain : Plain name) (slashes : List Char)
    (all : ∀ char ∈ slashes, decide (char = '/') = true) :
    dropSlashes (name ++ String.ofList slashes) = name := by
  rw [Archive.dropSlashes, String.toList_append, String.toList_ofList,
    dropEndWhile_append (fun char isLast => decide_eq_false (plain.last char isLast).1) all,
    String.ofList_toList]

theorem Plain.dropSlashes_slash (plain : Plain name) : Archive.dropSlashes (name ++ "/") = name :=
  plain.dropSlashes ['/'] (by simp)

theorem Plain.dropSlashes_short (plain : Plain name) (names : List String) (slash : Bool) :
    Archive.dropSlashes ((Spelling.short slash).field names name) = name := by
  cases slash with
  | false => simpa [Spelling.field] using plain.dropSlashes [] (List.forall_mem_nil _)
  | true => simpa [Spelling.field] using plain.dropSlashes_slash

/-- A field that is no reference holds the name itself. -/
theorem classify_plain {field : String} (unlike : startsWith field "#1/" = false)
    (single : field ≠ "//")
    (unnumbered : (startsWith field "/" && isNumber (dropStart 1 field)) = false)
    (content : Bytes) (next : Cursor) :
    classify field content next = named (dropSlashes field) content next := by
  simp only [classify, unlike, single, unnumbered, Bool.false_eq_true, if_false]

theorem symbolTables_plain : ∀ name ∈ symbolTables, ∀ slash : Bool,
    let field := if slash then name ++ "/" else name
    startsWith field "#1/" = false ∧ field ≠ "//" ∧
      (startsWith field "/" && isNumber (dropStart 1 field)) = false := by
  decide

theorem classify_short {names : List String} {slash : Bool} (plain : Plain name)
    (suits : (Spelling.short slash).Suits names name) (other : slash = true → name ≠ "#1")
    (content : Bytes) (next : Cursor) :
    classify ((Spelling.short slash).field names name) content next = named name content next := by
  suffices reads : classify ((Spelling.short slash).field names name) content next =
      named (dropSlashes ((Spelling.short slash).field names name)) content next by
    rw [reads, plain.dropSlashes_short]
  by_cases table : name ∈ symbolTables
  · obtain ⟨unlike, single, unnumbered⟩ := symbolTables_plain name table slash
    exact classify_plain unlike single unnumbered content next
  · obtain ⟨unlike', unlike⟩ := suits.2.resolve_left table
    have filled : name ≠ "" := by
      rintro rfl
      exact table (by decide)
    have free : startsWith ((Spelling.short slash).field names name) "#1/" = false ∧
        startsWith ((Spelling.short slash).field names name) "/" = false := by
      cases slash with
      | false => exact ⟨unlike, unlike'⟩
      | true => exact ⟨startsWith_slash "#1" unlike (other rfl), startsWith_slash "" unlike' filled⟩
    refine classify_plain free.1 ?_ ?_ content next
    · intro double
      rw [double] at free
      exact absurd free.2 (by decide)
    · rw [free.2, Bool.false_and]

theorem isAscii_slash : IsAscii "/" := by
  simp [IsAscii]

theorem Plain.asciiBytes_ne (plain : Plain name) {byte : UInt8} (member : byte ∈ asciiBytes name) :
    byte ≠ 10 ∧ byte ≠ 0 := by
  obtain ⟨char, isChar, rfl⟩ := List.mem_map.mp member
  have value := toNat_asciiByte (plain.ascii char isChar)
  obtain ⟨unbroken, filled⟩ := plain.solid char isChar
  constructor
  · intro same
    rw [same] at value
    exact unbroken (Char.toNat_inj.mp value.symm)
  · intro same
    rw [same] at value
    exact filled (Char.toNat_inj.mp value.symm)

theorem longName_tableBytes {names : List String} {place : Nat} (plain : Plain name)
    (isName : names[place]? = some name) :
    longName (tableBytes names) (tableBytes (names.take place)).length = name := by
  obtain ⟨inside, atPlace⟩ := List.getElem?_eq_some_iff.mp isName
  have split : names = names.take place ++ name :: names.drop (place + 1) := by
    rw [← atPlace, ← List.drop_eq_getElem_cons inside, List.take_append_drop]
  have bytes : tableBytes names = tableBytes (names.take place) ++
      (asciiBytes (name ++ "/") ++ 10 :: tableBytes (names.drop (place + 1))) := by
    conv_lhs => rw [split]
    rw [tableBytes, List.flatMap_append, List.flatMap_cons, asciiBytes_append, List.append_assoc,
      List.append_assoc]
    rfl
  have line : ∀ byte ∈ asciiBytes (name ++ "/"), decide (byte ≠ 10) = true := by
    intro byte member
    rw [asciiBytes_append, List.mem_append] at member
    rcases member with inName | isSlash
    · exact decide_eq_true (plain.asciiBytes_ne inName).1
    · rw [List.mem_singleton.mp isSlash]
      rfl
  rw [longName, bytes, List.drop_left, List.takeWhile_append_of_pos line,
    List.takeWhile_cons_of_neg (by decide),
    List.append_nil, decodeUtf8_asciiBytes (plain.ascii.append isAscii_slash),
    plain.dropSlashes_slash]

theorem isNumber_repr (number : Nat) : isNumber number.repr = true := by
  have all : number.repr.toList.all Char.isDigit = true := by
    simpa using fun _ member => isDigit_of_mem_repr member
  have filled : number.repr.isEmpty = false := by
    rw [Bool.eq_false_iff, ne_eq, String.isEmpty_iff]
    intro empty
    exact repr_ne_nil number (by rw [empty]; rfl)
  rw [isNumber, all, filled]
  rfl

theorem classify_listed {names : List String} {place : Nat} (plain : Plain name)
    (isName : names[place]? = some name) (content : Bytes) {next : Cursor}
    (table : next.longNames = tableBytes names) :
    classify ((Spelling.listed place).field names name) content next = named name content next := by
  have found := longName_tableBytes plain isName
  generalize isOffset : (tableBytes (names.take place)).length = offset at found
  have unlike : startsWith ("/" ++ offset.repr) "#1/" = false := by
    rw [startsWith, String.toList_append]
    rfl
  have number : dropStart 1 ("/" ++ offset.repr) = offset.repr := dropStart_append "/" _
  have single : "/" ++ offset.repr ≠ "//" := by
    intro double
    have digits := isNumber_repr offset
    rw [← number, double] at digits
    exact absurd digits (by decide)
  simp only [classify, Spelling.field, isOffset, unlike, single, startsWith_append, number,
    isNumber_repr, decimalValue_repr, table, found, Bool.false_eq_true, Bool.and_true, if_false,
    if_true]

theorem nameInContent_leading (plain : Plain name) (zeros : Nat) (content : Bytes) (next : Cursor) :
    nameInContent (name.toList.length + zeros : Nat)
      (asciiBytes name ++ List.replicate zeros 0 ++ content) next = named name content next := by
  have long : (asciiBytes name ++ List.replicate zeros 0).length = name.toList.length + zeros := by
    simp only [List.length_append, length_asciiBytes, List.length_replicate]
  have front := Position.slice_append [] (asciiBytes name ++ List.replicate zeros 0) content
  have back := Position.slice_append (asciiBytes name ++ List.replicate zeros 0) content []
  rw [List.length_nil, List.nil_append, long, Nat.cast_zero, zero_add] at front
  rw [List.append_nil, ← Nat.cast_add, ← List.length_append, long] at back
  have stripped : (asciiBytes name ++ List.replicate zeros 0).rdropWhile
      (fun byte => decide (byte = 0)) = asciiBytes name := by
    refine rdropWhile_append ?_ ?_
    · intro byte isLast
      exact decide_eq_false (plain.asciiBytes_ne (List.mem_of_getLast? isLast)).2
    · intro byte member
      exact decide_eq_true (List.eq_of_mem_replicate member)
  rw [List.rdropWhile] at stripped
  simp only [nameInContent, front, back, stripped, decodeUtf8_asciiBytes plain.ascii]

theorem classify_leading {names : List String} {zeros : Nat} (plain : Plain name) {content : Bytes}
    (below : (asciiBytes name ++ List.replicate zeros 0 ++ content).length < 10 ^ 10)
    (next : Cursor) :
    classify ((Spelling.leading zeros).field names name)
      (asciiBytes name ++ List.replicate zeros 0 ++ content) next = named name content next := by
  have digits : (name.toList.length + zeros).repr.toList.length ≤ 10 := by
    refine length_repr_le (by omega) ?_
    simp only [List.length_append, length_asciiBytes, List.length_replicate] at below
    omega
  have number : dropStart 3 ("#1/" ++ (name.toList.length + zeros).repr) =
      (name.toList.length + zeros).repr := dropStart_append "#1/" _
  simp only [classify, Spelling.field, startsWith_append, if_true, number,
    readInt?_repr (digits.trans (by decide)), nameInContent_leading plain]

end Classify

section Reading

variable {names : List String} {item : Item}

theorem fits_digits {start : String} {number : Nat} (ascii : IsAscii start)
    (short : start.toList.length ≤ 6) (below : number < 10 ^ 10) : Fits (start ++ number.repr) := by
  have digits : number.repr.toList.length ≤ 10 := length_repr_le (by omega) below
  refine ⟨ascii.append (isAscii_repr number), ?_, ?_⟩
  · rw [String.toList_append, List.length_append]
    omega
  · intro char isLast
    rw [String.toList_append, List.getLast?_append_of_ne_nil _ (repr_ne_nil number)] at isLast
    exact not_isBlank_of_isDigit (isDigit_of_mem_repr (List.mem_of_getLast? isLast))

theorem Plain.fits_short {name : String} {slash : Bool} (plain : Plain name)
    (short : ((Spelling.short slash).field names name).toList.length ≤ 16) :
    Fits ((Spelling.short slash).field names name) := by
  cases slash with
  | false => exact ⟨plain.ascii, short, fun char isLast => (plain.last char isLast).2⟩
  | true =>
      refine ⟨plain.ascii.append isAscii_slash, short, ?_⟩
      intro char isLast
      have slash : (name ++ "/").toList.getLast? = some '/' := by
        rw [String.toList_append]
        exact List.getLast?_concat
      rw [Spelling.field, if_pos rfl, slash, Option.some.injEq] at isLast
      rw [← isLast]
      rfl

theorem length_tableBytes_take (names : List String) (place : Nat) :
    (tableBytes (names.take place)).length ≤ (tableBytes names).length := by
  conv_rhs => rw [← List.take_append_drop place names, tableBytes, List.flatMap_append,
    List.length_append]
  exact Nat.le_add_right _ _

theorem Spelling.fits {name : String} {spelling : Spelling} {content : Bytes} (plain : Plain name)
    (suits : spelling.Suits names name)
    (below : (spelling.body { name := name, content := content }).length < 10 ^ 10)
    (bounded : (tableBytes names).length < 10 ^ 10) : Fits (spelling.field names name) := by
  cases spelling with
  | short slash => exact plain.fits_short suits.1
  | listed place =>
      exact fits_digits isAscii_slash (by decide)
        (Nat.lt_of_le_of_lt (length_tableBytes_take names place) bounded)
  | leading zeros =>
      refine fits_digits (by simp [IsAscii]) (by decide) ?_
      simp only [Spelling.body, List.length_append, length_asciiBytes, List.length_replicate] at below
      omega

/-- What a walk does at a record. -/
def Item.step (item : Item) (next : Cursor) : Step :=
  if item.isMisread then .fault (.data .unreadable)
  else match item.member? with
    | some found => .member found next
    | none => .table next

theorem named_step {found : Member} {spelling : Spelling} {frame : Frame}
    (clear : (Item.entry found spelling frame).isMisread = false) (next : Cursor) :
    named found.name found.content next = (Item.entry found spelling frame).step next := by
  rw [Item.step, clear, named, Item.member?]
  by_cases table : found.name ∈ symbolTables
  · simp [table]
  · simp [table]

theorem lacksLength_misread : lacksLength ("#1" ++ "/") = true := by
  decide

theorem classify_entry {found : Member} {spelling : Spelling} {frame : Frame}
    (plain : Plain found.name) (suits : spelling.Suits names found.name)
    (below : (spelling.body found).length < 10 ^ 10) (offset : Int) :
    classify (spelling.field names found.name) (spelling.body found)
        { offset := offset, longNames := tableBytes names } =
      (Item.entry found spelling frame).step { offset := offset, longNames := tableBytes names } := by
  cases misread : (Item.entry found spelling frame).isMisread with
  | false =>
      rw [← named_step misread]
      cases spelling with
      | short slash =>
          refine classify_short plain suits ?_ _ _
          rintro rfl same
          simp [Item.isMisread, same] at misread
      | listed place => exact classify_listed plain suits _ rfl
      | leading zeros => exact classify_leading plain below _
  | true =>
      rw [Item.step, misread, if_pos rfl]
      cases spelling with
      | listed place => cases misread
      | leading zeros => cases misread
      | short slash =>
          cases slash with
          | false => cases misread
          | true =>
              -- the field is `#1/`, with nothing behind it to read a length from
              have same : found.name = "#1" := of_decide_eq_true misread
              rw [same]
              exact classify_of_lacksLength lacksLength_misread _ _

theorem fits_table : Fits "//" := by
  refine ⟨by simp [IsAscii], by decide, ?_⟩
  intro char isLast
  obtain rfl : '/' = char := by simpa using isLast
  rfl

theorem classify_table (content : Bytes) (next : Cursor) :
    classify "//" content next = .table { next with longNames := content } := by
  have unlike : startsWith "//" "#1/" = false := by decide
  simp only [classify, unlike, Bool.false_eq_true, if_false, if_true]

theorem Written.fits {rest : List Item} (written : Written names (item :: rest))
    (bounded : (tableBytes names).length < 10 ^ 10) :
    Fits (item.field names) ∧ item.body.length < 10 ^ 10 := by
  cases written with
  | entry plain suits below _ => exact ⟨Spelling.fits plain suits below bounded, below⟩
  | longNames below _ => exact ⟨fits_table, below⟩

theorem Written.classify {rest : List Item} (written : Written names (item :: rest)) (offset : Int) :
    Archive.classify (item.field names) item.body
        { offset := offset, longNames := tableBytes names } =
      item.step { offset := offset, longNames := tableBytes (item.table names) } := by
  cases written with
  | entry plain suits below _ => exact classify_entry plain suits below offset
  | longNames _ _ => exact classify_table _ _

/-- A step over a record of a written archive. -/
theorem step_item {rest : List Item} (written : Written names (item :: rest))
    (bounded : (tableBytes names).length < 10 ^ 10) (before : Bytes) :
    step (before ++ encode names (item :: rest))
        { offset := before.length, longNames := tableBytes names } =
      item.step
        { offset := (before ++ record item.frame (item.field names) item.body).length,
          longNames := tableBytes (item.table names) } := by
  obtain ⟨fits, below⟩ := written.fits bounded
  rw [encode, ← List.append_assoc, step_record fits below, written.classify]

end Reading

section Walk

/-- What reading makes of records: their members, up to the first one that is misread. -/
def readings : List Item → List (Except Fault Member)
  | [] => []
  | item :: rest =>
      if item.isMisread then [.error (.data .unreadable)]
      else (item.member?.map .ok).toList ++ readings rest

theorem Written.tail {names : List String} {item : Item} {rest : List Item}
    (written : Written names (item :: rest)) (bounded : (tableBytes names).length < 10 ^ 10) :
    Written (item.table names) rest ∧ (tableBytes (item.table names)).length < 10 ^ 10 := by
  cases written with
  | entry _ _ _ written => exact ⟨written, bounded⟩
  | longNames below written => exact ⟨written, below⟩

/-- A walk over written records goes from each one to the next. -/
theorem walk_encode : ∀ {items : List Item} {names : List String} (before : Bytes) {fuel : Nat},
    Written names items → (tableBytes names).length < 10 ^ 10 → items.length < fuel →
      walk (before ++ encode names items) fuel
        { offset := before.length, longNames := tableBytes names } = readings items := by
  intro items
  induction items with
  | nil =>
      intro names before fuel _ _ enough
      obtain ⟨fuel, rfl⟩ := Nat.exists_eq_add_of_lt enough
      have ends : ((before ++ encode names []).length : Int) < before.length + headerSize := by
        rw [encode, List.append_nil, headerSize]
        omega
      simp only [walk, step, if_pos ends, readings]
  | cons item rest ih =>
      intro names before fuel written bounded enough
      obtain ⟨fuel, rfl⟩ : ∃ less, fuel = less + 1 := ⟨fuel - 1, by omega⟩
      obtain ⟨written', bounded'⟩ := written.tail bounded
      have onward := ih (before ++ record item.frame (item.field names) item.body)
        written' bounded' (Nat.lt_of_succ_lt_succ enough)
      rw [walk, step_item written bounded, readings, Item.step]
      cases misread : item.isMisread with
      | true => rfl
      | false =>
          rw [List.append_assoc] at onward
          cases held : item.member? with
          | none => exact onward
          | some found => exact congrArg (Except.ok found :: ·) onward

theorem readings_clear {items : List Item} (clear : ∀ item ∈ items, item.isMisread = false) :
    readings items = (items.filterMap Item.member?).map .ok := by
  induction items with
  | nil => rfl
  | cons item rest ih =>
      rw [readings, clear item List.mem_cons_self,
        ih fun other member => clear other (List.mem_cons_of_mem _ member)]
      cases held : item.member? with
      | none => simp [held]
      | some found => simp [held]

theorem readings_misread {before after : List Item} {item : Item}
    (clear : ∀ other ∈ before, other.isMisread = false) (misread : item.isMisread = true) :
    readings (before ++ item :: after) =
      (before.filterMap Item.member?).map .ok ++ [.error (.data .unreadable)] := by
  rw [← readings_clear clear]
  induction before with
  | nil => simp [readings, misread]
  | cons first rest ih =>
      rw [List.cons_append, readings, readings, clear first List.mem_cons_self,
        ih fun other member => clear other (List.mem_cons_of_mem _ member)]
      simp

theorem length_encode : ∀ (items : List Item) (names : List String),
    items.length ≤ (encode names items).length := by
  intro items
  induction items with
  | nil => intro names; rfl
  | cons item rest ih =>
      intro names
      have later := ih (item.table names)
      simp only [encode, record, header, List.length_append, List.length_cons]
      omega

theorem members_encode {items : List Item} (written : Written [] items) :
    members (archive items) = readings items := by
  have enough : items.length < 2 * (archive items).length + 2 := by
    have steps := length_encode items []
    rw [archive, List.length_append]
    omega
  exact walk_encode Magic.archive written (by decide) enough

/-- An archive is read back as the members that were written, in order, whatever way their names are
written in and whatever tables stand between them, if no record is misread. A record that is misread
ends the list by a fault. -/
theorem members_archive {items : List Item} (written : Written [] items) :
    ((∀ item ∈ items, item.isMisread = false) →
      members (archive items) = (items.filterMap Item.member?).map .ok) ∧
    ∀ before item after, items = before ++ item :: after →
      (∀ other ∈ before, other.isMisread = false) → item.isMisread = true →
      members (archive items) =
        (before.filterMap Item.member?).map .ok ++ [.error (.data .unreadable)] := by
  refine ⟨?_, ?_⟩
  · intro clear
    rw [members_encode written, readings_clear clear]
  · rintro before item after split clear misread
    rw [members_encode written, split, readings_misread clear misread]

/-- Free bytes of a header that are all blank, and a line break as padding. -/
def blankFrame : Frame :=
  { details := List.replicate 32 32, padding := 10, full := rfl }

/-- Names in every spelling, odd contents, and symbol tables between the members. -/
def mixedItems : List Item :=
  [.entry { name := "", content := [0, 0, 0, 1] } (.short true) blankFrame,
   .longNames ["a_rather_long_name.o", "another_long_name.o"] blankFrame,
   .entry { name := "a.o", content := [1] } (.short true) blankFrame,
   .entry { name := "another_long_name.o", content := [2, 3] } (.listed 1) blankFrame,
   .entry { name := "__.SYMDEF SORTED", content := [4] } (.leading 4) blankFrame,
   .entry { name := "b c.o", content := [5, 6, 7] } (.leading 3) blankFrame,
   .entry { name := "#1", content := [8] } (.short false) blankFrame]

theorem mixedItems_written : Written [] mixedItems := by
  refine .entry (by decide) ⟨by decide, by decide⟩ (by decide) ?_
  refine .longNames (by decide) ?_
  refine .entry (by decide) ⟨by decide, by decide⟩ (by decide) ?_
  refine .entry (by decide) rfl (by decide) ?_
  refine .entry (by decide) trivial (by decide) ?_
  refine .entry (by decide) trivial (by decide) ?_
  exact .entry (by decide) ⟨by decide, by decide⟩ (by decide) .nil

theorem members_archive_mixed :
    members (archive mixedItems) =
      [.ok { name := "a.o", content := [1] },
       .ok { name := "another_long_name.o", content := [2, 3] },
       .ok { name := "b c.o", content := [5, 6, 7] }, .ok { name := "#1", content := [8] }] :=
  (members_archive mixedItems_written).1 (by decide)

/-- A member that is called `#1`, written like every other short name. -/
def misreadItem : Item :=
  .entry { name := "#1", content := [8] } (.short true) blankFrame

/-- A written archive with a member, which is not read back. -/
theorem archive_misread : Written [] [misreadItem] ∧
    misreadItem.member? = some { name := "#1", content := [8] } ∧
    members (archive [misreadItem]) = [.error (.data .unreadable)] := by
  have written : Written [] [misreadItem] :=
    .entry (by decide) ⟨by decide, by decide⟩ (by decide) .nil
  exact ⟨written, by decide, members_encode written⟩

end Walk

end FlowAlign.Archive
