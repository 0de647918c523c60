import FlowAlign.Fault
import FlowAlign.Logged
import FlowAlign.Text.Affix
import FlowAlign.Text.CodePoint

/-!
Readable names of mangled symbols. Parsing the mangling itself is left to a demangler; the names of
legacy Rust symbols lose their hash and have their escapes decoded, which may be any code point.
-/

namespace FlowAlign.Symbol

inductive Parsed where
  | name (text : String)
  | notMangled
  | fails (reason : String)

/-- Answers of a demangler; a symbol without an answer is not mangled. -/
abbrev Demangler := List (String × Parsed)

def parse (demangler : Demangler) (symbol : String) : Parsed :=
  (demangler.lookup symbol).getD .notMangled

/-- Replaces every occurrence of a pattern, from the left; `skip` members belong to the last
occurrence and are passed over. -/
def replaceFrom {β : Type} [BEq β] (pattern replacement : List β) : Nat → List β → List β
  | _, [] => []
  | skip + 1, _ :: rest => replaceFrom pattern replacement skip rest
  | 0, first :: rest =>
      if pattern.isPrefixOf (first :: rest) then
        replacement ++ replaceFrom pattern replacement (pattern.length - 1) rest
      else first :: replaceFrom pattern replacement 0 rest

def replaceAll {β : Type} [BEq β] (pattern replacement text : List β) : List β :=
  replaceFrom pattern replacement 0 text

def isLowerHex (char : Char) : Bool :=
  char.isDigit || (decide ('a' ≤ char) && decide (char ≤ 'f'))

/-- Whether a text is the hash of a legacy Rust symbol: `::h` and sixteen digits. -/
def isRustHash (text : List Char) : Bool :=
  match text with
  | ':' :: ':' :: 'h' :: digits => digits.length == 16 && digits.all isLowerHex
  | _ => false

def dropHash? (text : List Char) : Option (List Char) :=
  let start := text.length - 19
  if isRustHash (text.drop start) then some (text.take start) else none

/-- Text without the hash at its end or in front of a final line break. -/
def withoutHash? (text : List Char) : Option (List Char) :=
  match dropHash? text with
  | some kept => some kept
  | none =>
      if text.getLast? = some '\n' then (dropHash? text.dropLast).map (· ++ ['\n']) else none

def escapes : List (String × String) :=
  [("$SP$", "@"), ("$BP$", "*"), ("$RF$", "&"), ("$LT$", "<"), ("$GT$", ">"), ("$LP$", "("),
   ("$RP$", ")"), ("$C$", ",")]

def decodePunctuation (text : List Char) : List Char :=
  escapes.foldl (fun decoded (escape, char) =>
    replaceAll escape.toList char.toList decoded) text

/-- Code point of an escape `u…$` with two to six digits, and the number of its digits. -/
def numericEscape? (text : List Char) : Option (Nat × Nat) :=
  match text with
  | 'u' :: rest =>
      let digits := rest.takeWhile isLowerHex
      if 2 ≤ digits.length ∧ digits.length ≤ 6 ∧ (rest.drop digits.length).head? = some '$' then
        some (digits.foldl (fun value digit => 16 * value + (Text.hexValue? digit).getD 0) 0,
          digits.length)
      else none
  | _ => none

/-- Decodes numeric escapes; `skip` characters belong to the last escape and are passed over. -/
def decodeNumeric : Nat → List Char → Except Fault (List Char)
  | _, [] => .ok []
  | skip + 1, _ :: rest => decodeNumeric skip rest
  | 0, '$' :: rest =>
      match numericEscape? rest with
      | some (point, digits) =>
          if point < 0x110000 then (decodeNumeric (digits + 2) rest).map (Text.spellPoint point ++ ·)
          else .error (.data .unreadable)
      | none => (decodeNumeric 0 rest).map ('$' :: ·)
  | 0, char :: rest => (decodeNumeric 0 rest).map (char :: ·)

def cleanRust (text : String) : Except Fault String := do
  let chars := text.toList
  let decoded ← decodeNumeric 0 (decodePunctuation ((withoutHash? chars).getD chars))
  return String.ofList (replaceAll ['.', '.'] [':', ':'] decoded)

/-- The symbol the demangler is asked about: MachO symbols carry one more underscore. -/
def mangledPart (name : String) : String :=
  if Text.startsWith name "__Z" then Text.dropStart 1 name else name

/-- Readable name of a symbol, the name itself when it is not mangled or cannot be read. -/
def demangle (demangler : Demangler) (name : String) : Logged Fault String :=
  let symbol := mangledPart name
  if !Text.startsWith symbol "_Z" then pure name
  else match parse demangler symbol with
    | .fails reason => do
        Logged.note { level := .debug, text := s!"Cannot demangle `{name}`: {reason}"
                      subject := some name }
        return name
    | .notMangled => pure name
    | .name text =>
        if (withoutHash? text.toList).isSome then Logged.ofExcept (cleanRust text) else pure text

end FlowAlign.Symbol
