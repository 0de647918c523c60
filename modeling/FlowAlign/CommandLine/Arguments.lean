import FlowAlign.CommandLine.Option
import FlowAlign.Fault
import FlowAlign.Text.Affix

/-!
Options and arguments as they are given. A value is the next argument, or attached to the option:
behind an equals sign to a long one, directly to a letter. Letters without values may be grouped,
and two hyphens end the options.
-/

namespace FlowAlign.CommandLine

inductive Misuse where
  | unknownOption
  | missingValue
  | needlessValue
  | badValue
  | badName (fault : FileFault)
  | missingArgument
  | extraArgument
  deriving DecidableEq

/-- Options with their values in the order given, and the arguments between and behind them. -/
structure Arguments where
  options : List (Key × String) := []
  arguments : List String := []

/-- What one argument with options says: complete options, and one that still needs its value. -/
structure Piece where
  options : List (Key × String) := []
  open? : Option Key := none

namespace Arguments

def readLetters : List Char → Except Misuse Piece
  | [] => .ok {}
  | letter :: rest =>
      match Key.ofLetter? letter with
      | none => .error .unknownOption
      | some key =>
          if key.takesValue then
            if rest.isEmpty then .ok { open? := some key }
            else .ok { options := [(key, String.ofList rest)] }
          else (readLetters rest).map fun piece =>
            { piece with options := (key, "") :: piece.options }

/-- Reads a long option with the value attached to it, if there is one. -/
def readLong (key : Key) (value : Option String) : Except Misuse Piece :=
  if key.takesValue then
    match value with
    | some text => .ok { options := [(key, text)] }
    | none => .ok { open? := some key }
  else if value.isSome then .error .needlessValue
  else .ok { options := [(key, "")] }

def readOption (argument : String) : Except Misuse Piece :=
  let (long, value) := match Text.splitFirst? '=' argument with
    | some (before, after) => (before, some after)
    | none => (argument, none)
  match Key.ofLong? long with
  | some key => readLong key value
  | none =>
      if Text.startsWith argument "--" then .error .unknownOption
      else readLetters (argument.toList.drop 1)

def isOption (argument : String) : Bool :=
  Text.startsWith argument "-" && decide (1 < argument.length)

def prepend (options : List (Key × String)) (parsed : Arguments) : Arguments :=
  { parsed with options := options ++ parsed.options }

/-- Reads arguments, the first one being the value of an option that still needs one. -/
def parseFrom : Option Key → List String → Except Misuse Arguments
  | none, [] => .ok {}
  | some _, [] => .error .missingValue
  | some key, value :: rest => (parseFrom none rest).map (prepend [(key, value)])
  | none, argument :: rest =>
      if argument = "--" then .ok { arguments := rest }
      else if isOption argument then
        match readOption argument with
        | .error misuse => .error misuse
        | .ok piece => (parseFrom piece.open? rest).map (prepend piece.options)
      else (parseFrom none rest).map fun parsed =>
        { parsed with arguments := argument :: parsed.arguments }

def parse (arguments : List String) : Except Misuse Arguments :=
  parseFrom none arguments

/-- Value of an option; of several the last one counts. -/
def value? (parsed : Arguments) (key : Key) : Option String :=
  parsed.options.reverse.lookup key

def count (parsed : Arguments) (key : Key) : Nat :=
  parsed.options.countP fun option => option.1 = key

def eager? (parsed : Arguments) : Option Key :=
  (parsed.options.map Prod.fst).find? Key.isEager

end Arguments

end FlowAlign.CommandLine
