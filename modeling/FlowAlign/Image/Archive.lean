import FlowAlign.Image.Header
import FlowAlign.Position
import FlowAlign.Text.Affix
import FlowAlign.Text.Numeral
import FlowAlign.Text.Utf8

/-!
Archives of objects. A member is a header of 60 bytes and its content, padded to an even length.
Long names stand in a table of their own, at whose offsets headers point, or in front of the
content. A walk goes from header to header as the sizes say; a size may be negative, so a walk can
come back to a header it has seen.
-/

namespace FlowAlign.Archive

structure Member where
  name : String
  content : Bytes
  deriving DecidableEq

/-- Place of a walk: where the next header is expected, and the table of long names met last. -/
structure Cursor where
  offset : Int
  longNames : Bytes
  deriving DecidableEq

inductive Step where
  | finish
  | fault (cause : Fault)
  | table (next : Cursor)
  | member (found : Member) (next : Cursor)
  deriving DecidableEq

def headerSize : Nat := 60

def symbolTables : List String := ["", "/SYM64", "__.SYMDEF", "__.SYMDEF SORTED", "__.SYMDEF_64"]

def dropSlashes (name : String) : String :=
  String.ofList (Text.dropEndWhile (· = '/') name.toList)

def nameField (header : Bytes) : String :=
  Text.trimEnd (Text.decodeAscii (header.take 16))

def sizeField? (header : Bytes) : Option Int := do
  Text.readInt? (Text.trim (← Text.decodeAscii? ((header.drop 48).take 10)))

/-- Entry of the table of long names at an offset, up to the end of its line. -/
def longName (table : Bytes) (offset : Nat) : String :=
  dropSlashes (Text.decodeUtf8 ((table.drop offset).takeWhile (· ≠ 10)))

def isNumber (text : String) : Bool :=
  !text.isEmpty && text.toList.all Char.isDigit

def named (name : String) (content : Bytes) (next : Cursor) : Step :=
  if symbolTables.contains name then .table next
  else .member { name := name, content := content } next

def nameInContent (length : Int) (content : Bytes) (next : Cursor) : Step :=
  let name := ((Position.slice content 0 length).reverse.dropWhile (· = 0)).reverse
  named (Text.decodeUtf8 name) (Position.slice content length content.length) next

def classify (field : String) (content : Bytes) (next : Cursor) : Step :=
  let rest := Text.dropStart 1 field
  if Text.startsWith field "#1/" then
    match Text.readInt? (Text.dropStart 3 field) with
    | some length => nameInContent length content next
    | none => .fault (.data .unreadable)
  else if field = "//" then .table { next with longNames := content }
  else if Text.startsWith field "/" && isNumber rest then
    named (longName next.longNames (Text.decimalValue rest.toList)) content next
  else named (dropSlashes field) content next

def step (data : Bytes) (cursor : Cursor) : Step :=
  let start := cursor.offset + headerSize
  let header := Position.slice data cursor.offset start
  if data.length < start then .finish
  else if header.drop 58 ≠ [0x60, 0x0a] then .fault (.input none (.malformedHeader cursor.offset))
  else match sizeField? header with
    | none => .fault (.input none (.malformedSize cursor.offset))
    | some size =>
        classify (nameField header) (Position.slice data start (start + size))
          { cursor with offset := start + size + size % 2 }

/-- Members found by at most so many steps. A fault ends the list. -/
def walk (data : Bytes) : Nat → Cursor → List (Except Fault Member)
  | 0, _ => [.error (.data .endless)]
  | fuel + 1, cursor =>
      match step data cursor with
      | .finish => []
      | .fault cause => [.error cause]
      | .table next => walk data fuel next
      | .member found next => .ok found :: walk data fuel next

def start : Cursor :=
  { offset := Magic.archive.length, longNames := [] }

/-- Members of an archive, in order. A fault ends the list. A walk that takes more steps than there
are places in the data goes round in a circle. -/
def members (data : Bytes) : List (Except Fault Member) :=
  walk data (2 * data.length + 2) start

end FlowAlign.Archive
