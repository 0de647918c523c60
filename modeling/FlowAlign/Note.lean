/-!
Notes that a computation leaves for the user. Notes are values: they are collected in order, and a
filter decides which of them are shown.
-/

namespace FlowAlign

inductive Level where
  | unset
  | debug
  | info
  | warning
  | error
  | critical
  deriving DecidableEq

namespace Level

def rank : Level → Nat
  | unset => 0
  | debug => 10
  | info => 20
  | warning => 30
  | error => 40
  | critical => 50

def all : List Level := [unset, debug, info, warning, error, critical]

def name : Level → String
  | unset => "NOTSET"
  | debug => "DEBUG"
  | info => "INFO"
  | warning => "WARNING"
  | error => "ERROR"
  | critical => "CRITICAL"

def synonyms : List (String × Level) :=
  [("WARN", warning), ("FATAL", critical)]

/-- Whether notes of a level are shown to a user who asked for a rank. A note without a level never
is. -/
def isShownAt (threshold : Nat) (level : Level) : Bool :=
  level ≠ unset && decide (threshold ≤ level.rank)

def ofName? (name : String) : Option Level :=
  match all.find? fun level => level.name == name with
  | some level => some level
  | none => synonyms.lookup name

end Level

/-- A note with a subject is shown at its first occurrence only. Notes of one text about different
subjects are different notes. -/
structure Note where
  level : Level
  text : String
  subject : Option String := none
  deriving DecidableEq

namespace Note

def debug (text : String) : Note := { level := .debug, text := text }

def info (text : String) : Note := { level := .info, text := text }

def warning (text : String) : Note := { level := .warning, text := text }

def error (text : String) : Note := { level := .error, text := text }

def once (level : Level) (text : String) : Note :=
  { level := level, text := text, subject := some text }

structure Filter where
  threshold : Nat
  /-- Notes with a subject that came before, shown or not. -/
  seen : List Note := []

namespace Filter

def isRepeat (filter : Filter) (note : Note) : Bool :=
  note.subject.isSome && decide (note ∈ filter.seen)

def shows (filter : Filter) (note : Note) : Bool :=
  note.level.isShownAt filter.threshold && !filter.isRepeat note

def next (filter : Filter) (note : Note) : Filter :=
  if note.subject.isSome && !filter.isRepeat note then
    { filter with seen := note :: filter.seen }
  else filter

def select (filter : Filter) : List Note → List Note
  | [] => []
  | note :: rest =>
      let shown := (filter.next note).select rest
      if filter.shows note then note :: shown else shown

end Filter

def shown (threshold : Nat) (notes : List Note) : List Note :=
  Filter.select { threshold := threshold } notes

end Note

end FlowAlign
