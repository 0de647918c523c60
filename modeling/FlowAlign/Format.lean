import FlowAlign.Text.Blank
import FlowAlign.Text.Case

/-! The input formats, their spellings and the instruction set families they belong to. -/

namespace FlowAlign

/-- An instruction set family; `other` stands for a family without an opcode table. -/
inductive Family where
  | x86
  | arm64
  | arm32
  | avr
  | llvm
  | other (name : String)
  deriving DecidableEq

namespace Family

def name : Family → String
  | x86 => "x86"
  | arm64 => "arm64"
  | arm32 => "arm32"
  | avr => "avr"
  | llvm => "llvm"
  | other name => name

def ofName (name : String) : Family :=
  if name = "x86" then .x86
  else if name = "arm64" then .arm64
  else if name = "arm32" then .arm32
  else if name = "avr" then .avr
  else if name = "llvm" then .llvm
  else .other name

end Family

/-- Format of an input file: LLVM bitcode, or machine code of one architecture in a container. -/
inductive Format where
  | llvmBitcode
  | arm64
  | arm32
  | avr
  | x86
  | x64
  deriving DecidableEq

namespace Format

def all : List Format := [llvmBitcode, arm64, arm32, avr, x86, x64]

def name : Format → String
  | llvmBitcode => "llvm_bitcode"
  | arm64 => "arm64"
  | arm32 => "arm32"
  | avr => "avr"
  | x86 => "x86"
  | x64 => "x86_64"

def index : Format → Nat
  | llvmBitcode => 0
  | arm64 => 1
  | arm32 => 2
  | avr => 3
  | x86 => 4
  | x64 => 5

def tag : Format → String
  | llvmBitcode => "llvm-bitcode"
  | arm64 => "arm64"
  | arm32 => "arm32"
  | avr => "avr"
  | x86 => "x86"
  | x64 => "x86-64"

def synonyms : Format → List String
  | llvmBitcode => ["llvm-bitcode", "ll-bc", "llbc", "bitcode", "llvm"]
  | arm64 => ["arm64", "aarch64", "armv8"]
  | arm32 => ["arm32", "aarch32", "armv7", "arm"]
  | avr => ["avr"]
  | x86 => ["x86", "x86-32", "x86_32", "i386", "i686"]
  | x64 => ["x86-64", "x64", "x86_64", "amd64"]

def family : Format → Family
  | llvmBitcode => .llvm
  | arm64 => .arm64
  | arm32 => .arm32
  | avr => .avr
  | x86 => .x86
  | x64 => .x86

/-- What is looked up among the synonyms: the text without surrounding blanks and case. -/
def lookupForm (text : String) : String :=
  Text.fold (Text.trim text)

def ofText? (text : String) : Option Format :=
  all.find? fun format => format.synonyms.contains (lookupForm text)

def ofName? (name : String) : Option Format :=
  all.find? fun format => format.name == name

end Format

end FlowAlign
