import FlowAlign.Code.Order
import FlowAlign.Format
import FlowAlign.Graph.Check
import FlowAlign.Image.Kind
import FlowAlign.Text.Hex

/-! Everything that can go wrong, and how it is worded. -/

namespace FlowAlign

inductive InputFault where
  | unreadable (reason : String)
  | truncatedHeader (kind : FileKind)
  | badSignature
  | malformedHeader (offset : Int)
  | malformedSize (offset : Int)
  | corrupt (description : String)
  | notNative (description : String)
  | notBitcode
  deriving DecidableEq

def InputFault.message : InputFault → String
  | unreadable reason => s!"cannot read file ({reason})"
  | truncatedHeader kind => s!"truncated {kind.name} header"
  | badSignature => "invalid PE signature"
  | malformedHeader offset => "malformed archive member header at offset " ++ Text.hex offset
  | malformedSize offset => "malformed archive member size at offset " ++ Text.hex offset
  | corrupt description => s!"corrupt or unsupported {description}"
  | notNative description => s!"{description} is not an ELF, MachO or PE file"
  | notBitcode => "the file is not LLVM bitcode"

inductive Mismatch where
  | notInUniversal (requested : Format) (description : String)
  | otherCode (requested : Format) (found : Option Format) (description : String)
  | bitcodeFound (requested : Format)
  | nativeFound (kind : FileKind)
  deriving DecidableEq

def Mismatch.message : Mismatch → String
  | notInUniversal requested description =>
      s!"architecture {requested.tag} is not present in the universal binary {description}"
  | otherCode requested found description =>
      let name := match found with
        | some format => format.tag
        | none => "an unsupported architecture"
      s!"{description} contains {name} code but {requested.tag} was requested"
  | bitcodeFound requested =>
      s!"the file contains LLVM bitcode but {requested.tag} was requested"
  | nativeFound kind =>
      s!"the file is a native {kind.name} file but {Format.llvmBitcode.tag} was requested"

inductive AlignmentFault where
  | inconsistentCell (row column : Nat)
  | notComputed
  | uncovered (function side : String)
  | emptyEntry
  | inconsistentStatus (entry : String)
  deriving DecidableEq

def AlignmentFault.message : AlignmentFault → String
  | inconsistentCell row column => s!"Inconsistent alignment table at cell ({row}, {column})"
  | notComputed => "The alignment has not been computed"
  | uncovered function side =>
      s!"Alignment of `{function}` does not cover the {side} blocks exactly once in " ++
        "linearization order"
  | emptyEntry => "Empty aligned pair"
  | inconsistentStatus entry => s!"Inconsistent status of the pair {entry}"

inductive FileFault where
  | missing
  | isDirectory
  | notDirectory
  | nameTooLong
  | nameWithZero
  | nameWithoutBytes
  deriving DecidableEq

def FileFault.message : FileFault → String
  | missing => "No such file or directory"
  | isDirectory => "Is a directory"
  | notDirectory => "Not a directory"
  | nameTooLong => "File name too long"
  | nameWithZero => "embedded null byte"
  | nameWithoutBytes => "surrogates not allowed"

def FileFault.isBadName : FileFault → Bool
  | nameWithZero => true
  | nameWithoutBytes => true
  | _ => false

inductive RequestFault where
  | unknownFormat (text : String)
  | noFormat
  | rightNameAlone
  | pathTaken (path : String)
  | unknownOutput (name : String)
  | noDecoder (format : Format)
  | unknownArchitecture (code : Int)
  deriving DecidableEq

def RequestFault.message : RequestFault → String
  | unknownFormat text => s!"Can't parse `{text}` files"
  | noFormat => "Format: None not implemented"
  | rightNameAlone => "Right-hand function provided, but left is missing"
  | pathTaken path => s!"path `{path}` already exists and is not a file."
  | unknownOutput name => s!"Unknown output format {name}"
  | noDecoder format => s!"Format {format.tag} cannot be disassembled with capstone"
  | unknownArchitecture code => s!"Unrecognized capstone arch {code}"

inductive DataFault where
  | unknownKey
  | outOfRange
  | unreadable
  | cutShort
  | wrongType
  | tooLarge
  | unencodable
  | tooDeep
  | endless
  deriving DecidableEq

inductive MissingSide where
  | left
  | right
  | either
  deriving DecidableEq

def MissingSide.name : MissingSide → String
  | left => "left-hand"
  | right => "right-hand"
  | either => "either"

inductive Fault where
  | graph (cause : GraphFault)
  | alignment (cause : AlignmentFault)
  | input (path : Option String) (cause : InputFault)
  | mismatch (path : Option String) (cause : Mismatch)
  | unsupportedBitcode (path : Option String) (description reason : String)
  | noFunctions (side : MissingSide) (name : Option String)
  | request (cause : RequestFault)
  | order (cause : Code.OrderFault)
  | file (cause : FileFault)
  | data (cause : DataFault)
  deriving DecidableEq

namespace Fault

def withPath (path : Option String) (message : String) : String :=
  match path with
  | some location => s!"{location}: {message}"
  | none => message

/-- Diagnosis of a fault; empty for faults that have none of their own. -/
def message : Fault → String
  | graph cause => cause.message
  | alignment cause => cause.message
  | input path cause => withPath path cause.message
  | mismatch path cause => withPath path cause.message
  | unsupportedBitcode path description reason => withPath path
      (s!"cannot parse the bitcode of {description} ({reason}). It may come " ++
        "from a newer LLVM version or use a pointer format not supported here")
  | noFunctions side none => s!"No functions to compare in {side.name} file"
  | noFunctions side (some name) => s!"Cannot find function `{name}` in {side.name} file"
  | request cause => cause.message
  | order _ => ""
  | file cause => cause.message
  | data _ => ""

def isDiagnosed : Fault → Bool
  | order _ => false
  | file _ => false
  | data _ => false
  | _ => true

def isInternal : Fault → Bool
  | graph _ => true
  | alignment _ => true
  | _ => false

def isInputProblem : Fault → Bool
  | input _ _ => true
  | mismatch _ _ => true
  | unsupportedBitcode _ _ _ => true
  | noFunctions _ _ => true
  | _ => false

/-- Names the file a fault of the input is about, unless it is named already. -/
def locate (path : String) : Fault → Fault
  | input none cause => input (some path) cause
  | mismatch none cause => mismatch (some path) cause
  | unsupportedBitcode none description reason => unsupportedBitcode (some path) description reason
  | fault => fault

end Fault

end FlowAlign
