import FlowAlign.Text.Ranges

/-! White space: trimming it and cutting text into words at it. -/

namespace FlowAlign.Text

/-- Ranges of the white space characters, the four information separators included. -/
def blankRanges : List (Nat × Nat) :=
  [(9, 13), (28, 32), (133, 133), (160, 160), (5760, 5760), (8192, 8202), (8232, 8233),
   (8239, 8239), (8287, 8287), (12288, 12288)]

def isBlank (char : Char) : Bool :=
  inRanges blankRanges char.toNat

def dropEndWhile (test : Char → Bool) (text : List Char) : List Char :=
  (text.reverse.dropWhile test).reverse

def trimEnd (text : String) : String :=
  String.ofList (dropEndWhile isBlank text.toList)

def trim (text : String) : String :=
  String.ofList (dropEndWhile isBlank (text.toList.dropWhile isBlank))

/-- Words of a text whose current word, in reverse, has been read so far. -/
def wordsFrom : List Char → List Char → List (List Char)
  | [], current => if current.isEmpty then [] else [current.reverse]
  | char :: rest, current =>
      if isBlank char then
        if current.isEmpty then wordsFrom rest [] else current.reverse :: wordsFrom rest []
      else wordsFrom rest (char :: current)

def words (text : String) : List String :=
  (wordsFrom text.toList []).map String.ofList

end FlowAlign.Text
