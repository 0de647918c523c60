import FlowAlign.Note

/-! Which notes a user wants to see. -/

namespace FlowAlign

structure Verbosity where
  verbose : Nat := 0
  quiet : Bool := false

namespace Verbosity

def level (verbosity : Verbosity) : Level :=
  if verbosity.quiet then .error
  else match verbosity.verbose with
    | 0 => .warning
    | 1 => .info
    | _ => .debug

/-- Whether progress is worth showing: at the debug level, or when a variable of the environment
says so. -/
def isDebug (rank : Nat) (setting : Option String) : Bool :=
  decide (rank ≤ Level.debug.rank) || setting.any fun value => !value.isEmpty

end Verbosity

end FlowAlign
