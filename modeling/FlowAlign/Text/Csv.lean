/-!
Comma separated values. A field is quoted when it holds a comma, a quote or a line break, a quote
inside it is written twice, and every line ends in a carriage return and a line feed.
-/

namespace FlowAlign.Text

def needsQuotes (field : List Char) : Bool :=
  field.any fun char => char == ',' || char == '"' || char == '\r' || char == '\n'

def doubleQuotes : List Char → List Char
  | [] => []
  | char :: rest => if char = '"' then '"' :: '"' :: doubleQuotes rest else char :: doubleQuotes rest

def csvField (field : String) : List Char :=
  let chars := field.toList
  if needsQuotes chars then '"' :: doubleQuotes chars ++ ['"'] else chars

/-- Fields of a line with the commas between them; a line of one empty field is written quoted. -/
def csvFields : List String → List Char
  | [] => []
  | [field] => csvField field
  | field :: rest => csvField field ++ ',' :: csvFields rest

def csvLine (fields : List String) : List Char :=
  (if fields = [""] then ['"', '"'] else csvFields fields) ++ ['\r', '\n']

def csv (lines : List (List String)) : String :=
  String.ofList (lines.flatMap csvLine)

end FlowAlign.Text
