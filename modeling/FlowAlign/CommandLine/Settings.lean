import FlowAlign.Align.Options
import FlowAlign.CommandLine.Arguments
import FlowAlign.CommandLine.Range
import FlowAlign.Files
import FlowAlign.Report.Render
import FlowAlign.Text.Numeral
import FlowAlign.Verbosity

/-! What a user asks for, read from the arguments. -/

namespace FlowAlign.CommandLine

structure Settings where
  format : Format
  primary : Path
  secondary : Path
  name : Option String
  rightName : Option String
  options : Options Float
  jobs : Int
  output : Option Path
  outputFormat : OutputFormat
  verbosity : Verbosity

namespace Settings

def valueOf {β : Type} (parsed : Arguments) (key : Key) (read : String → Except Misuse β) :
    Except Misuse (Option β) :=
  match parsed.value? key with
  | none => .ok none
  | some text => (read text).map some

def accepted {β : Type} (value : Option β) : Except Misuse β :=
  match value with
  | some value => .ok value
  | none => .error .badValue

def readFormat (text : String) : Except Misuse Format :=
  accepted (Format.ofText? text)

def readOutputFormat (text : String) : Except Misuse OutputFormat :=
  accepted (OutputFormat.ofName? text)

def readFloat (text : String) : Except Misuse Float :=
  accepted ((Text.readFloat? text).map Float.ofBits)

def readInt (text : String) : Except Misuse Int :=
  accepted (Text.readInt? text)

/-- Path of an output file, which must not be that of a directory. The text is looked up as it was
given. -/
def readOutput (files : Files) (text : String) : Except Misuse Path :=
  let path := Path.ofText text
  if text.isEmpty then .ok path
  else match Path.checkSpelling text >>= fun _ => files.find? path with
    | .ok .directory => .error .badValue
    | .ok _ => .ok path
    | .error fault => if fault.isBadName then .error (.badName fault) else .ok path

def floatOf (parsed : Arguments) (key : Key) (default : Float) : Except Misuse Float := do
  return (← valueOf parsed key readFloat).getD default

def intOf (parsed : Arguments) (key : Key) (default : Int) : Except Misuse Int := do
  return (← valueOf parsed key readInt).getD default

/-- Reads the value of an option only to see whether it is refused. -/
def checkValue (files : Files) (parsed : Arguments) : Key → Except Misuse Unit
  | .format => do discard (valueOf parsed .format readFormat)
  | .outputFormat => do discard (valueOf parsed .outputFormat readOutputFormat)
  | .output => do discard (valueOf parsed .output (readOutput files))
  | .maxIterations => do discard (valueOf parsed .maxIterations readInt)
  | .maxBlocks => do discard (valueOf parsed .maxBlocks readInt)
  | .jobs => do discard (valueOf parsed .jobs readInt)
  | .matchThreshold => do discard (valueOf parsed .matchThreshold readFloat)
  | .modifyThreshold => do discard (valueOf parsed .modifyThreshold readFloat)
  | .gapCost => do discard (valueOf parsed .gapCost readFloat)
  | .topologyWeight => do discard (valueOf parsed .topologyWeight readFloat)
  | .edgePenalty => do discard (valueOf parsed .edgePenalty readFloat)
  | _ => .ok ()

def readInputs : List String → Except Misuse (Path × Path)
  | [primary, secondary] => .ok (Path.ofText primary, Path.ofText secondary)
  | _ :: _ :: _ :: _ => .error .extraArgument
  | _ => .error .missingArgument

def readOptions (parsed : Arguments) : Except Misuse (Options Float) := do
  let standard : Options Float := .standard
  return { matchThreshold := ← floatOf parsed .matchThreshold standard.matchThreshold
           modifyThreshold := ← floatOf parsed .modifyThreshold standard.modifyThreshold
           gapCost := ← floatOf parsed .gapCost standard.gapCost
           topologyWeight := ← floatOf parsed .topologyWeight standard.topologyWeight
           edgePenalty := ← floatOf parsed .edgePenalty standard.edgePenalty
           maxBlocks := ← intOf parsed .maxBlocks standard.maxBlocks
           maxIterations := ← intOf parsed .maxIterations standard.maxIterations }

/-- Settings of arguments. A format and two files must be given, and of several values that are
refused the first one decides. -/
def ofArguments (files : Files) (parsed : Arguments) : Except Misuse Settings := do
  parsed.options.forM fun (key, _) => checkValue files parsed key
  let some format ← valueOf parsed .format readFormat | throw .badValue
  let outputFormat ← valueOf parsed .outputFormat readOutputFormat
  let options ← readOptions parsed
  let jobs ← intOf parsed .jobs 1
  let output ← valueOf parsed .output (readOutput files)
  let (primary, secondary) ← readInputs parsed.arguments
  return { format := format
           primary := primary
           secondary := secondary
           name := parsed.value? .name
           rightName := parsed.value? .rightName
           options := options
           jobs := jobs
           output := output
           outputFormat := outputFormat.getD .text
           verbosity := { verbose := parsed.count .verbose, quiet := 0 < parsed.count .quiet } }

def checkedOptions (options : Options Float) : Logged Fault (Options Float) := do
  let standard : Options Float := .standard
  return { matchThreshold := ← Range.check
             { label := "Match threshold", default := standard.matchThreshold, low := 0.0
               high := some 1.0 } options.matchThreshold
           modifyThreshold := ← Range.check
             { label := "Modify threshold", default := standard.modifyThreshold, low := 0.0
               high := some 1.0 } options.modifyThreshold
           gapCost := ← Range.check
             { label := "Gap cost", default := standard.gapCost, low := 0.0, strict := true }
             options.gapCost
           topologyWeight := ← Range.check
             { label := "Topology weight", default := standard.topologyWeight, low := 0.0 }
             options.topologyWeight
           edgePenalty := ← Range.check
             { label := "Edge penalty", default := standard.edgePenalty, low := 0.0 }
             options.edgePenalty
           maxIterations := ← Range.check
             { label := "Maxiter", default := standard.maxIterations, low := 0 }
             options.maxIterations
           maxBlocks := ← Range.check
             { label := "Max blocks", default := standard.maxBlocks, low := 1 }
             options.maxBlocks }

def checked (settings : Settings) : Logged Fault Settings := do
  let options ← checkedOptions settings.options
  let workers : Range Int := { label := "Jobs", default := 1, low := 1 }
  let jobs ← workers.check settings.jobs
  return { settings with options := options, jobs := jobs }

end Settings

end FlowAlign.CommandLine
