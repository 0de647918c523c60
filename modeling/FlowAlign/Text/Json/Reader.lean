import FlowAlign.Text.Json
import FlowAlign.Text.Numeral

/-!
Reading JSON text. A numeral without a fraction and an exponent is a whole number. An escaped pair of
surrogates is one code point, and a surrogate alone is kept.
-/

namespace FlowAlign.Json

def isBlank (char : Char) : Bool :=
  char == ' ' || char == '\n' || char == '\t' || char == '\r'

def skipBlanks (chars : List Char) : List Char :=
  chars.dropWhile isBlank

def unit? : List Char → Option Nat
  | a :: b :: c :: d :: _ => do
      let digits ← [a, b, c, d].mapM Text.hexValue?
      return digits.foldl (fun value digit => 16 * value + digit) 0
  | _ => none

def lowUnit? : List Char → Option Nat
  | '\\' :: 'u' :: rest => (unit? rest).filter fun unit => decide (0xDC00 ≤ unit ∧ unit < 0xE000)
  | _ => none

/-- Code point of an escape that starts with a unit, and the number of characters of the escape. -/
def pairedPoint (unit : Nat) (rest : List Char) : Nat × Nat :=
  match if 0xD800 ≤ unit ∧ unit < 0xDC00 then lowUnit? rest else none with
  | some low => (0x10000 + (unit - 0xD800) * 1024 + (low - 0xDC00), 11)
  | none => (unit, 5)

/-- Code point of the escape behind a backslash, and the number of characters of the escape. -/
def escape? : List Char → Option (Nat × Nat)
  | 'u' :: rest => (unit? rest).map fun unit => pairedPoint unit (rest.drop 4)
  | char :: _ => ([('"', 34), ('\\', 92), ('/', 47), ('b', 8), ('f', 12), ('n', 10), ('r', 13),
      ('t', 9)].lookup char).map fun point => (point, 1)
  | [] => none

/-- Reads up to the closing quote, and gives what follows it as well. `found` holds the characters
read so far, the last one first; `skip` characters belong to the last escape. -/
def readText (found : List Char) : Nat → List Char → Option (String × List Char)
  | _, [] => none
  | skip + 1, _ :: rest => readText found skip rest
  | 0, char :: rest =>
      if char = '"' then some (String.ofList found.reverse, rest)
      else if char = '\\' then
        match escape? rest with
        | some (point, length) => readText ((Text.spellPoint point).reverse ++ found) length rest
        | none => none
      else readText ((Text.spellPoint char.toNat).reverse ++ found) 0 rest

def ofWord? (word : String) : Option Json :=
  match word with
  | "null" => some .null
  | "true" => some (.bool true)
  | "false" => some (.bool false)
  | _ =>
      match Text.readInt? word with
      | some value => some (.int value)
      | none => (Text.readFloat? word).map fun bits => .float (Float.ofBits bits)

def isWordChar (char : Char) : Bool :=
  char.isAlphanum || char == '+' || char == '-' || char == '.'

mutual

/-- Reads a value, and gives what follows it as well. The first argument bounds the number of values
and of the levels they are nested in. -/
def readValue : Nat → List Char → Option (Json × List Char)
  | 0, _ => none
  | fuel + 1, chars =>
      match skipBlanks chars with
      | '"' :: rest => (readText [] 0 rest).map fun (spelled, after) => (.text spelled, after)
      | '[' :: rest =>
          match skipBlanks rest with
          | ']' :: after => some (.list [], after)
          | first => readItems fuel [] first
      | '\x7b' :: rest =>
          match skipBlanks rest with
          | '\x7d' :: after => some (.object [], after)
          | first => readFields fuel [] first
      | word => (ofWord? (String.ofList (word.takeWhile isWordChar))).map fun value =>
          (value, word.dropWhile isWordChar)

/-- Reads the rest of a list, behind the items found so far, the last one first. -/
def readItems : Nat → List Json → List Char → Option (Json × List Char)
  | 0, _, _ => none
  | fuel + 1, found, chars =>
      match readValue fuel chars with
      | none => none
      | some (value, rest) =>
          match skipBlanks rest with
          | ',' :: more => readItems fuel (value :: found) more
          | ']' :: after => some (.list (value :: found).reverse, after)
          | _ => none

/-- Reads the rest of an object, behind the fields found so far, the last one first. -/
def readFields : Nat → List (String × Json) → List Char → Option (Json × List Char)
  | 0, _, _ => none
  | fuel + 1, found, chars =>
      match skipBlanks chars with
      | '"' :: start =>
          match readText [] 0 start with
          | none => none
          | some (name, behind) =>
              match skipBlanks behind with
              | ':' :: next =>
                  match readValue fuel next with
                  | none => none
                  | some (value, rest) =>
                      match skipBlanks rest with
                      | ',' :: more => readFields fuel ((name, value) :: found) more
                      | '\x7d' :: after => some (.object ((name, value) :: found).reverse, after)
                      | _ => none
              | _ => none
      | _ => none

end

def parse? (text : String) : Option Json :=
  let chars := text.toList
  match readValue (chars.length + 1) chars with
  | some (value, rest) => if (skipBlanks rest).isEmpty then some value else none
  | none => none

def field (name : String) : Json → Json
  | object fields => (fields.lookup name).getD null
  | _ => null

end FlowAlign.Json
