import FlowAlign.Files
import FlowAlign.Logged

/-! Saving results to files. -/

namespace FlowAlign

def savedBytes (text : String) : Except Fault (List UInt8) :=
  match Text.encodeUtf8? text with
  | some bytes => .ok bytes
  | none => .error (.data .unencodable)

/-- Writes a text to a path and gives the files afterwards. The file is opened first and stays when
its text cannot be had. -/
def overwrite (files : Files) (path : Path) (content : Except Fault String) :
    Files × Except Fault Unit :=
  match files.write path [] with
  | .error fault => (files, .error (.file fault))
  | .ok opened =>
      match content.bind savedBytes with
      | .error fault => (opened, .error fault)
      | .ok bytes =>
          match opened.write path bytes with
          | .error fault => (opened, .error (.file fault))
          | .ok saved => (saved, .ok ())

/-- Writes a text to a path that is free or names a file, with a note when a file is replaced. -/
def saveText (files : Files) (path : Path) (content : Except Fault String) :
    Files × Logged Fault Unit :=
  if files.isTaken path then (files, Logged.fail (.request (.pathTaken path.text)))
  else
    let replaced := files.isPresent path
    let (saved, outcome) := overwrite files path content
    (saved, { notes := if replaced then [.info s!"Overwriting file {path.text}"] else []
              outcome := outcome })

end FlowAlign
