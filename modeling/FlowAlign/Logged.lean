import FlowAlign.Note

/-! Computations that leave notes and may fail. The notes left before a failure stay. -/

namespace FlowAlign

structure Logged (ε α : Type) where
  notes : List Note
  outcome : Except ε α

namespace Logged

variable {ε α β : Type}

def ofExcept (outcome : Except ε α) : Logged ε α :=
  { notes := [], outcome := outcome }

def note (left : Note) : Logged ε Unit :=
  { notes := [left], outcome := .ok () }

def leave (left : List Note) : Logged ε Unit :=
  { notes := left, outcome := .ok () }

def fail (fault : ε) : Logged ε α :=
  { notes := [], outcome := .error fault }

def andThen (first : Logged ε α) (next : α → Logged ε β) : Logged ε β :=
  match first.outcome with
  | .ok value =>
      let after := next value
      { notes := first.notes ++ after.notes, outcome := after.outcome }
  | .error fault => { notes := first.notes, outcome := .error fault }

instance : Monad (Logged ε) where
  pure value := { notes := [], outcome := .ok value }
  bind := andThen

/-- Goes on after a failure, which keeps the notes left before it. -/
def recover (run : Logged ε α) (handle : ε → Logged ε α) : Logged ε α :=
  match run.outcome with
  | .ok _ => run
  | .error fault =>
      let after := handle fault
      { notes := run.notes ++ after.notes, outcome := after.outcome }

instance : MonadExceptOf ε (Logged ε) where
  throw := fail
  tryCatch := recover

instance : MonadLift (Except ε) (Logged ε) where
  monadLift := ofExcept

/-- The outcome as a value, so that a failure can be handled where it happened. -/
def attempt (run : Logged ε α) : Logged ε (Except ε α) :=
  { notes := run.notes, outcome := .ok run.outcome }

end Logged

end FlowAlign
