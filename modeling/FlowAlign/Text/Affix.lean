/-! Beginnings and endings of texts. -/

namespace FlowAlign.Text

def startsWith (text start : String) : Bool :=
  start.toList.isPrefixOf text.toList

def endsWith (text ending : String) : Bool :=
  ending.toList.isSuffixOf text.toList

def startsWithAny (starts : List String) (text : String) : Bool :=
  starts.any (startsWith text)

def endsWithAny (endings : List String) (text : String) : Bool :=
  endings.any (endsWith text)

def dropStart (count : Nat) (text : String) : String :=
  String.ofList (text.toList.drop count)

def removeEnding (ending text : String) : String :=
  if endsWith text ending then
    String.ofList (text.toList.take (text.toList.length - ending.toList.length))
  else text

def occursIn (needle : List Char) : List Char → Bool
  | [] => needle.isEmpty
  | char :: rest => needle.isPrefixOf (char :: rest) || occursIn needle rest

def contains (text needle : String) : Bool :=
  occursIn needle.toList text.toList

def splitFirst? (mark : Char) (text : String) : Option (String × String) :=
  let chars := text.toList
  if chars.contains mark then
    some (String.ofList (chars.takeWhile (· != mark)),
      String.ofList ((chars.dropWhile (· != mark)).drop 1))
  else none

def splitChars (mark : Char) : List Char → List (List Char)
  | [] => [[]]
  | char :: rest =>
      if char = mark then [] :: splitChars mark rest
      else match splitChars mark rest with
        | [] => [[char]]
        | piece :: pieces => (char :: piece) :: pieces

def splitAll (mark : Char) (text : String) : List String :=
  (splitChars mark text.toList).map String.ofList

end FlowAlign.Text
