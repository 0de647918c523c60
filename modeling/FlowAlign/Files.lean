import FlowAlign.Fault
import FlowAlign.Text.Affix
import FlowAlign.Text.Utf8

/-! Paths, and a tree of files around a working directory. -/

namespace FlowAlign

structure Path where
  root : String := ""
  parts : List String
  deriving DecidableEq

namespace Path

/-- Exactly two slashes at the start are a root of their own. -/
def rootOf (text : String) : String :=
  if Text.startsWith text "//" && !Text.startsWith text "///" then "//"
  else if Text.startsWith text "/" then "/"
  else ""

def ofText (text : String) : Path :=
  { root := rootOf text
    parts := (Text.splitAll '/' text).filter fun part => part ≠ "" && part ≠ "." }

/-- Spelling of a path; the empty one is a single dot. -/
def text (path : Path) : String :=
  let spelled := path.root ++ "/".intercalate path.parts
  if spelled.isEmpty then "." else spelled

/-- The paths of the places on the way of a path, and the path itself. -/
def beginnings (path : Path) : List Path :=
  (List.range path.parts.length).map fun count =>
    { path with parts := path.parts.take (count + 1) }

def name (path : Path) : String :=
  path.parts.getLastD ""

def maxComponent : Nat := 255

def maxLength : Nat := 4095

def checkSpelling (spelling : String) : Except FileFault Unit :=
  match Text.nameBytes? spelling with
  | none => .error .nameWithoutBytes
  | some bytes =>
      if bytes.contains 0 then .error .nameWithZero
      else if maxLength < bytes.length then .error .nameTooLong
      else .ok ()

def check (path : Path) : Except FileFault Unit :=
  checkSpelling path.text

def isTooLong (part : String) : Bool :=
  ((Text.nameBytes? part).getD []).length > maxComponent

end Path

inductive FileNode where
  | file (content : List UInt8)
  | directory
  | sink

/-- Files and directories by their components from the working directory. A slash is the first
component of a place under the root, and double dots are those of a place around the working
directory. -/
structure Files where
  entries : List (List String × FileNode)

namespace Files

def empty : Files := { entries := [] }

/-- Whether a place is the working directory or one of those around it. -/
def isAbove (place : List String) : Bool :=
  place.all fun part => part == ".."

def isRoot (place : List String) : Bool :=
  place == ["/"]

def system : List (List String × FileNode) :=
  [(["/", "dev"], .directory), (["/", "dev", "null"], .sink), (["/", "etc"], .directory),
   (["/", "proc"], .directory), (["/", "tmp"], .directory), (["/", "usr"], .directory)]

/-- Place of the directory around a place; a root is its own. -/
def parent (place : List String) : List String :=
  if isAbove place then ".." :: place
  else if isRoot place then place
  else place.dropLast

def step (place : List String) (part : String) : List String :=
  if part = ".." then parent place else place ++ [part]

def start (path : Path) : List String :=
  if path.root.isEmpty then [] else ["/"]

def placeOf (path : Path) : List String :=
  path.parts.foldl step (start path)

/-- What stands at a place; the directories around an entry exist as well. -/
def node? (files : Files) (place : List String) : Option FileNode :=
  if isAbove place || isRoot place then some .directory
  else match (files.entries ++ system).lookup place with
    | some node => some node
    | none =>
        if files.entries.any fun (other, _) => place.isPrefixOf other then some .directory else none

/-- Place that components lead to; everything but the last one must be a directory. -/
def walk (files : Files) : List String → List String → Except FileFault (List String)
  | place, [] => .ok place
  | place, part :: rest =>
      match files.node? place with
      | some .directory =>
          if Path.isTooLong part then .error .nameTooLong
          else files.walk (step place part) rest
      | some _ => .error .notDirectory
      | none => .error .missing

def place (files : Files) (path : Path) : Except FileFault (List String) := do
  path.check
  files.walk (start path) path.parts

def find? (files : Files) (path : Path) : Except FileFault FileNode := do
  match files.node? (← files.place path) with
  | some node => return node
  | none => throw .missing

def read (files : Files) (path : Path) : Except FileFault (List UInt8) := do
  match ← files.find? path with
  | .file content => return content
  | .directory => throw .isDirectory
  | .sink => return []

def isPresent (files : Files) (path : Path) : Bool :=
  match files.find? path with
  | .ok _ => true
  | .error _ => false

def isTaken (files : Files) (path : Path) : Bool :=
  match files.find? path with
  | .ok (.file _) => false
  | .ok _ => true
  | .error _ => false

def write (files : Files) (path : Path) (content : List UInt8) : Except FileFault Files := do
  let place ← files.place path
  match files.node? place with
  | some .directory => throw .isDirectory
  | some .sink => return files
  | _ => return { entries := (place, .file content) ::
      files.entries.filter fun (other, _) => other ≠ place }

end Files

end FlowAlign
