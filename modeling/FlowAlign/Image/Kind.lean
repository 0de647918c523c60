/-! Kinds of input files. -/

namespace FlowAlign

inductive FileKind where
  | unknown
  | elf
  | macho
  | fatMacho
  | pe
  | archive
  | bitcode
  deriving DecidableEq

namespace FileKind

def all : List FileKind := [unknown, elf, macho, fatMacho, pe, archive, bitcode]

def name : FileKind → String
  | unknown => "unknown"
  | elf => "elf"
  | macho => "macho"
  | fatMacho => "fat_macho"
  | pe => "pe"
  | archive => "archive"
  | bitcode => "bitcode"

def ofName? (name : String) : Option FileKind :=
  all.find? fun kind => kind.name == name

end FileKind

end FlowAlign
