import FlowAlign.Fault

/-! Formats by the names users give them. -/

namespace FlowAlign.Format

/-- Format with a spelling; an unknown one is reported the way it was looked up. -/
def ofText (text : String) : Except Fault Format :=
  match ofText? text with
  | some format => .ok format
  | none => .error (.request (.unknownFormat (lookupForm text)))

end FlowAlign.Format
