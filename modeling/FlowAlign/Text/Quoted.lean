import FlowAlign.Text.CodePoint
import FlowAlign.Text.Hex
import FlowAlign.Text.Printable

/-!
Quoted text for display. Single quotes enclose the text, double ones when it holds a single quote
and no double one. A backslash, the enclosing quote and the characters that cannot be printed are
escaped.
-/

namespace FlowAlign.Text

/-- Escape of a code point that cannot be printed, by the number of digits it needs. -/
def escapeUnprintable (point : Nat) : String :=
  if point < 0x100 then "\\x" ++ hexField 2 point
  else if point < 0x10000 then "\\u" ++ hexField 4 point
  else "\\U" ++ hexField 8 point

def quotePoint (mark : Char) (point : Nat) : String :=
  if isSurrogate point then escapeUnprintable point
  else
    let char := Char.ofNat point
    if char = mark ∨ char = '\\' then String.ofList ['\\', char]
    else if char = '\n' then "\\n"
    else if char = '\t' then "\\t"
    else if char = '\r' then "\\r"
    else if isPrintable char then String.singleton char
    else escapeUnprintable point

def quote (text : String) : String :=
  let chars := text.toList
  let mark := if chars.contains '\'' && !chars.contains '"' then '"' else '\''
  String.singleton mark ++ String.join ((points text).map (quotePoint mark)) ++
    String.singleton mark

end FlowAlign.Text
