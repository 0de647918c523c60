/-!
LLVM modules as a bitcode reader reports them: functions, their blocks and instructions, with the
text that the reader prints for each.
-/

namespace FlowAlign.Bitcode

inductive ValueKind where
  | argument
  | instruction
  | constantInt
  | constantFloat
  | nullPointer
  | basicBlock
  | function
  | globalVariable
  | globalAlias
  | undefined
  | poison
  | other (name : String)
  deriving DecidableEq

def ValueKind.ofName (name : String) : ValueKind :=
  ([("argument", argument), ("instruction", instruction), ("constant_int", constantInt),
    ("constant_fp", constantFloat), ("constant_pointer_null", nullPointer),
    ("basic_block", basicBlock), ("function", function), ("global_variable", globalVariable),
    ("global_alias", globalAlias), ("undef_value", undefined),
    ("poison_value", poison)].lookup name).getD (other name)

structure Value where
  kind : ValueKind := .instruction
  name : String := ""
  text : String := ""

structure InstructionValue where
  opcode : String
  text : String := ""
  operands : List Value := []

structure BlockValue where
  name : String := ""
  text : String := ""
  instructions : List InstructionValue := []

structure FunctionValue where
  name : String := ""
  blocks : List BlockValue := []
  isDeclaration : Bool := false

abbrev Module := Except String (List FunctionValue)

end FlowAlign.Bitcode
