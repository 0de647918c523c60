import FlowAlign.Align.Matcher
import FlowAlign.Compare.Pairing
import FlowAlign.Report.Result

/-!
Comparison of two programs, pair by pair. A failure inside one pair is part of its result and does
not touch the others.
-/

namespace FlowAlign

namespace Compare

variable {α : Type} [Quantity α]

def alignFunctions (options : Options α) (primary secondary : Function) :
    Logged Fault (Alignment α × List String) := do
  let first ← primary.canonicalize
  let second ← secondary.canonicalize
  let matcher ← Align.process options first second
  let run := Align.compute matcher
  Logged.leave run.notes
  let alignment ← Logged.ofExcept run.result
  return (alignment, first.warnings ++ second.warnings ++ matcher.warnings)

def functions (options : Options α) (primary secondary : Function) :
    Logged Fault (FunctionDiff α) := do
  match ← (alignFunctions options primary secondary).attempt with
  | .ok (alignment, warnings) =>
      FunctionDiff.ofAlignment (← primary.name) (← secondary.name) alignment warnings
  | .error fault =>
      if fault.isInternal then
        let name ← primary.name
        Logged.note (.error s!"Internal error while comparing `{name}`: {fault.message}")
        return .failed name (← secondary.name) (some fault.message)
      else Logged.fail fault

end Compare

/-- Two programs under comparison, with the results so far and the pairs still to come in the
current pass, if one is going on. -/
structure Session (α : Type) where
  primary : Program
  secondary : Program
  selection : Option Selection
  options : Options α
  results : List (FunctionDiff α) := []
  pending : Option (List (Function × Function)) := none

namespace Session

variable {α : Type} [Quantity α]

def pairs (session : Session α) : Except Fault (List (Function × Function)) :=
  Compare.pairs session.primary session.secondary session.selection

def added (session : Session α) : List String :=
  Compare.added session.primary session.secondary session.selection

def removed (session : Session α) : List String :=
  Compare.removed session.primary session.secondary session.selection

def diff (session : Session α) : ProgramDiff α :=
  ProgramDiff.make session.primary.name session.secondary.name session.results session.added
    session.removed

def startNote (pairs : List (Function × Function)) : Note :=
  .info s!"[+] Comparing {pairs.length} function pair(s)"

/-- Compares the given pairs in turn. The results up to a failure are kept. -/
def compareAll (session : Session α) :
    List (Function × Function) → Session α × Logged Fault Unit
  | [] => (session, pure ())
  | (primary, secondary) :: rest =>
      let run := Compare.functions session.options primary secondary
      match run.outcome with
      | .error fault => (session, { notes := run.notes, outcome := .error fault })
      | .ok result =>
          let (after, others) := compareAll { session with results := session.results ++ [result] } rest
          (after, { others with notes := run.notes ++ others.notes })

def compute (session : Session α) : Session α × Logged Fault Unit :=
  match session.pairs with
  | .error fault => (session, Logged.fail fault)
  | .ok pairs =>
      let (after, run) := compareAll { session with results := [] } pairs
      (after, { run with notes := startNote pairs :: run.notes })

def result (session : Session α) : Logged Fault (ProgramDiff α) := do
  let (after, run) := session.compute
  run
  return after.diff

def step (session : Session α) :
    List (Function × Function) → Session α × Logged Fault (Option (FunctionDiff α))
  | [] => ({ session with pending := none }, pure none)
  | (primary, secondary) :: rest =>
      let run := Compare.functions session.options primary secondary
      match run.outcome with
      | .ok result =>
          ({ session with results := session.results ++ [result], pending := some rest },
            { notes := run.notes, outcome := .ok (some result) })
      | .error fault =>
          ({ session with pending := some [] }, { notes := run.notes, outcome := .error fault })

/-- Result of the next pair; a pass is started when none is going on, and nothing is answered at its
end. -/
def next (session : Session α) : Session α × Logged Fault (Option (FunctionDiff α)) :=
  match session.pending with
  | some pairs => session.step pairs
  | none =>
      match session.pairs with
      | .error fault => ({ session with pending := some [] }, Logged.fail fault)
      | .ok pairs =>
          let (after, run) := step { session with results := [], pending := some pairs } pairs
          (after, { run with notes := startNote pairs :: run.notes })

end Session

end FlowAlign
