import FlowAlign.Decimal.Layout
import FlowAlign.Text.CodePoint
import FlowAlign.Text.Hex

/-!
JSON values and their text, on one line or with one item a line. Objects keep the order of their
fields, and every code point that is no printable ASCII character is escaped by its UTF-16 units.
-/

namespace FlowAlign

inductive Json where
  | null
  | bool (value : Bool)
  | int (value : Int)
  | float (value : Float)
  | text (value : String)
  | list (items : List Json)
  | object (fields : List (String × Json))

namespace Json

/-- Numbers as everywhere in results, with the special values spelled the way readers expect. -/
def numberLayout : Decimal.Layout :=
  { Decimal.Layout.result with notANumber := "NaN", infinite := "Infinity" }

def unitEscape (unit : Nat) : String :=
  "\\u" ++ Text.hexField 4 unit

def escapePoint (point : Nat) : String :=
  if point = 34 then "\\\""
  else if point = 92 then "\\\\"
  else if point = 8 then "\\b"
  else if point = 9 then "\\t"
  else if point = 10 then "\\n"
  else if point = 12 then "\\f"
  else if point = 13 then "\\r"
  else if 32 ≤ point ∧ point < 127 then String.singleton (Char.ofNat point)
  else if point < 0x10000 then unitEscape point
  else unitEscape (0xD800 + (point - 0x10000) / 1024) ++
    unitEscape (0xDC00 + (point - 0x10000) % 1024)

def quoteText (text : String) : String :=
  "\"" ++ String.join ((Text.points text).map escapePoint) ++ "\""

def leaf : Json → String
  | null => "null"
  | bool value => if value then "true" else "false"
  | int value => toString value
  | float value => numberLayout.render value.toBits
  | text value => quoteText value
  | list _ => "[]"
  | object _ => "\x7b\x7d"

mutual

def compact : Json → String
  | list items => "[" ++ ", ".intercalate (compactItems items) ++ "]"
  | object fields => "\x7b" ++ ", ".intercalate (compactFields fields) ++ "\x7d"
  | value => leaf value

def compactItems : List Json → List String
  | [] => []
  | item :: rest => compact item :: compactItems rest

def compactFields : List (String × Json) → List String
  | [] => []
  | (name, value) :: rest => (quoteText name ++ ": " ++ compact value) :: compactFields rest

end

def lineStart (depth : Nat) : String :=
  "\n" ++ String.ofList (List.replicate (2 * depth) ' ')

def enclose (depth : Nat) (opening closing : String) (lines : List String) : String :=
  if lines.isEmpty then opening ++ closing
  else opening ++ lineStart (depth + 1) ++ ("," ++ lineStart (depth + 1)).intercalate lines ++
    lineStart depth ++ closing

mutual

def indented (depth : Nat) : Json → String
  | list items => enclose depth "[" "]" (indentedItems (depth + 1) items)
  | object fields => enclose depth "\x7b" "\x7d" (indentedFields (depth + 1) fields)
  | value => leaf value

def indentedItems (depth : Nat) : List Json → List String
  | [] => []
  | item :: rest => indented depth item :: indentedItems depth rest

def indentedFields (depth : Nat) : List (String × Json) → List String
  | [] => []
  | (name, value) :: rest =>
      (quoteText name ++ ": " ++ indented depth value) :: indentedFields depth rest

end

mutual

/-- A value in which numbers that are not finite are spelled as texts, for readers that know no
such numbers. -/
def spelled : Json → Json
  | float value => if value.isFinite then float value else text (Decimal.floatText value)
  | list items => list (spelledItems items)
  | object fields => object (spelledFields fields)
  | value => value

def spelledItems : List Json → List Json
  | [] => []
  | item :: rest => spelled item :: spelledItems rest

def spelledFields : List (String × Json) → List (String × Json)
  | [] => []
  | (name, value) :: rest => (name, spelled value) :: spelledFields rest

end

def ofText? (text : Option String) : Json :=
  match text with
  | some value => .text value
  | none => .null

def ofInt? (value : Option Int) : Json :=
  match value with
  | some value => .int value
  | none => .null

end Json

end FlowAlign
