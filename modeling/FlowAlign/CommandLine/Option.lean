/-! The options of the command and their spellings. -/

namespace FlowAlign.CommandLine

inductive Key where
  | format
  | listFormats
  | name
  | rightName
  | matchThreshold
  | modifyThreshold
  | gapCost
  | topologyWeight
  | edgePenalty
  | maxIterations
  | maxBlocks
  | jobs
  | output
  | outputFormat
  | verbose
  | quiet
  | version
  deriving DecidableEq

namespace Key

def spellings : List (Key × String × Option Char) :=
  [(format, "--format", some 'f'), (listFormats, "--list-formats", none), (name, "--name", some 'n'),
   (rightName, "--right-name", none), (matchThreshold, "--match-threshold", none),
   (modifyThreshold, "--modify-threshold", none), (gapCost, "--gap-cost", none),
   (topologyWeight, "--topology-weight", none), (edgePenalty, "--edge-penalty", none),
   (maxIterations, "--maxiter", some 'i'), (maxBlocks, "--max-blocks", none),
   (jobs, "--jobs", some 'j'), (output, "--output", some 'o'),
   (outputFormat, "--output-format", none), (verbose, "--verbose", some 'v'),
   (quiet, "--quiet", some 'q'), (version, "--version", none)]

def ofLong? (text : String) : Option Key :=
  (spellings.find? fun (_, long, _) => long == text).map Prod.fst

def ofLetter? (letter : Char) : Option Key :=
  (spellings.find? fun (_, _, short) => short == some letter).map Prod.fst

def takesValue : Key → Bool
  | listFormats => false
  | verbose => false
  | quiet => false
  | version => false
  | _ => true

def isEager : Key → Bool
  | listFormats => true
  | version => true
  | _ => false

end Key

end FlowAlign.CommandLine
