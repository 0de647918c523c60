import FlowAlign.Bitcode.Value
import FlowAlign.Text.Affix
import FlowAlign.Text.Blank

/-!
Labels of blocks. A block without a name has its number in the first line of its text, as `5:` or
`; <label>:5:`; labels with other characters stand in quotes.
-/

namespace FlowAlign.Bitcode

def quotedLabel? (line : List Char) : Option (List Char) :=
  match line with
  | '"' :: rest =>
      let inner := rest.takeWhile (· ≠ '"')
      match rest.drop inner.length with
      | '"' :: ':' :: _ => some ('"' :: inner ++ ['"'])
      | _ => none
  | _ => none

def plainLabel? (line : List Char) : Option (List Char) :=
  let label := line.takeWhile fun char => !Text.isBlank char && char ≠ ':' && char ≠ ';'
  if !label.isEmpty && (line.drop label.length).head? = some ':' then some label else none

def labelOfLine? (line : String) : Option String :=
  let mark := "; <label>:"
  let rest := if Text.startsWith line mark then (Text.dropStart mark.length line).toList
    else line.toList
  let label := match quotedLabel? rest with
    | some label => some label
    | none => plainLabel? rest
  label.map fun chars => String.ofList (Text.dropEndWhile (· = '"') (chars.dropWhile (· = '"')))

def firstLine (text : String) : String :=
  String.ofList ((text.toList.dropWhile (· = '\n')).takeWhile (· ≠ '\n'))

/-- Label of a block with a name and a text; an entry block may have none. -/
def blockLabel? (name text : String) : Option String :=
  if name.isEmpty then labelOfLine? (firstLine text) else some name

def labelOr (label : Option String) (standIn : String) : String :=
  match label with
  | some name => if name.isEmpty then standIn else name
  | none => standIn

end FlowAlign.Bitcode
