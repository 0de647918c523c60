import FlowAlign.Literal
import FlowAlign.Text.Blank

/-!
Tokens: instructions reduced to what is compared. A token keeps the opcode class, the roles of the
operands and the constants; an undecodable instruction keeps its text.
-/

namespace FlowAlign

/-- Role of an operand once the names of registers and values are gone. -/
inductive Role where
  | register
  | memory
  | immediate
  | label
  deriving DecidableEq

namespace Role

def all : List Role := [register, memory, immediate, label]

def name : Role → String
  | register => "register"
  | memory => "memory"
  | immediate => "immediate"
  | label => "label"

def ofName? (name : String) : Option Role :=
  all.find? fun role => role.name == name

end Role

structure Token where
  opcode : String
  roles : List Role := []
  literals : List (Option Literal) := []
  mnemonic : Option String := none
  deriving DecidableEq

namespace Token

/-- What two tokens have in common exactly when they are structurally equal. -/
structure Key where
  opcode : String
  roles : List Role
  literals : List (Option Literal.Key)
  mnemonic : Option String
  deriving DecidableEq

def key (token : Token) : Key :=
  { opcode := token.opcode
    roles := token.roles
    literals := token.literals.map fun literal => literal.map Literal.key
    mnemonic := token.mnemonic }

def same (first second : Token) : Bool :=
  decide (first.key = second.key)

def isUndecoded (token : Token) : Bool :=
  token.mnemonic.isSome

def operandText (role : Role) (literal : Option Literal) : String :=
  match literal with
  | none => role.name
  | some value => role.name ++ "=" ++ value.display

def display (token : Token) : String :=
  let operands := List.zipWith operandText token.roles token.literals
  let parts := match token.mnemonic with
    | some text => operands ++ [Text.quote text]
    | none => operands
  Text.trimEnd (token.opcode ++ " " ++ ", ".intercalate parts)

end Token

end FlowAlign
