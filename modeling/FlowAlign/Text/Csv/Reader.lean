import FlowAlign.Text.Csv

/-!
Reading comma separated values. The lines of a text are read one after the other, and a field in quotes may
go on behind the end of a line. How many characters a field may have is left to the program that reads.
-/

namespace FlowAlign.Text.Csv

/-- Where a reader stands: in front of a line or of a field, in a field, inside of quotes, behind a quote
inside of quotes, and behind the break that ends a line. -/
inductive Place where
  | line
  | field
  | plain
  | quoted
  | quote
  | ended
  deriving DecidableEq

/-- A reader with the characters of the field and the fields of the line that it has read. -/
structure Reader where
  place : Place := .line
  field : List Char := []
  fields : List String := []
  deriving DecidableEq

def isBreak (char : Char) : Bool :=
  char == '\r' || char == '\n'

namespace Reader

def keep (reader : Reader) (place : Place) (char : Char) : Reader :=
  { reader with place := place, field := reader.field ++ [char] }

def save (reader : Reader) (place : Place) : Reader :=
  { place := place, fields := reader.fields ++ [String.ofList reader.field] }

/-- A field goes on up to a comma or a break. -/
def goOn (reader : Reader) (char : Char) : Reader :=
  if isBreak char then reader.save .ended
  else if char = ',' then reader.save .field
  else reader.keep .plain char

/-- A field that begins with a quote is quoted. -/
def beginField (reader : Reader) (char : Char) : Reader :=
  if char = '"' then { reader with place := .quoted } else reader.goOn char

/-- The reader behind a character; nothing when a line goes on behind its break. -/
def read? (reader : Reader) (char : Char) : Option Reader :=
  match reader.place with
  | .line => some (if isBreak char then { reader with place := .ended } else reader.beginField char)
  | .field => some (reader.beginField char)
  | .plain => some (reader.goOn char)
  | .quoted => some (if char = '"' then { reader with place := .quote } else reader.keep .quoted char)
  | .quote => some (if char = '"' then reader.keep .quoted char else reader.goOn char)
  | .ended => if isBreak char then some reader else none

/-- The reader behind a line. -/
def endLine (reader : Reader) : Reader :=
  match reader.place with
  | .line => reader
  | .quoted => reader
  | .ended => { reader with place := .line }
  | _ => reader.save .line

/-- Fields that are left at the end of a text: those of a line whose last quote is missing. -/
def leftover (reader : Reader) : List (List String) :=
  if reader.place = .quoted then [(reader.save .line).fields] else []

end Reader

/-- Whether a line ends behind a character: behind a line feed, at the end of the text and, where a carriage
return alone ends a line, behind one without a line feed. -/
def endsLine (returns : Bool) (char : Char) (rest : List Char) : Bool :=
  char == '\n' || rest.isEmpty || (returns && char == '\r' && rest.head? != some '\n')

def readFrom (returns : Bool) : Reader → List Char → Option (List (List String))
  | reader, [] => some reader.leftover
  | reader, char :: rest => do
      let next ← reader.read? char
      if endsLine returns char rest then
        let ended := next.endLine
        if ended.place = .line then return ended.fields :: (← readFrom returns {} rest)
        else readFrom returns ended rest
      else readFrom returns next rest

/-- Lines of a text, each with its fields; nothing for a text that cannot be read. -/
def read (returns : Bool) (text : String) : Option (List (List String)) :=
  readFrom returns {} text.toList

end FlowAlign.Text.Csv
