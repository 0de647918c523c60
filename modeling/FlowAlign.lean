import FlowAlign.Align.Alignment
import FlowAlign.Align.Chain
import FlowAlign.Align.Costs
import FlowAlign.Align.Global
import FlowAlign.Align.Matcher
import FlowAlign.Align.Names
import FlowAlign.Align.Options
import FlowAlign.Avr.Decode
import FlowAlign.Avr.Encoding
import FlowAlign.Bitcode.Function
import FlowAlign.Bitcode.Label
import FlowAlign.Bitcode.Value
import FlowAlign.Code.Block
import FlowAlign.Code.Build
import FlowAlign.Code.Order
import FlowAlign.CommandLine.Arguments
import FlowAlign.CommandLine.Console
import FlowAlign.CommandLine.Option
import FlowAlign.CommandLine.Range
import FlowAlign.CommandLine.Run
import FlowAlign.CommandLine.Settings
import FlowAlign.Compare.Pairing
import FlowAlign.Compare.Session
import FlowAlign.Decimal.Binary64
import FlowAlign.Decimal.Layout
import FlowAlign.Decimal.Shortest
import FlowAlign.Edit.Distance
import FlowAlign.Edit.Script
import FlowAlign.Edit.Word
import FlowAlign.Fault
import FlowAlign.Files
import FlowAlign.Format
import FlowAlign.Format.Lookup
import FlowAlign.Function
import FlowAlign.Graph.Basic
import FlowAlign.Graph.Check
import FlowAlign.Graph.Search
import FlowAlign.Image.Archive
import FlowAlign.Image.Basic
import FlowAlign.Image.Bytes
import FlowAlign.Image.Extent
import FlowAlign.Image.Functions
import FlowAlign.Image.Header
import FlowAlign.Image.Kind
import FlowAlign.Image.Memory
import FlowAlign.Image.Universal
import FlowAlign.Instruction
import FlowAlign.Literal
import FlowAlign.Load.Bitcode
import FlowAlign.Load.Native
import FlowAlign.Load.Program
import FlowAlign.Logged
import FlowAlign.Machine.Control
import FlowAlign.Machine.Decoded
import FlowAlign.Machine.JumpTable
import FlowAlign.Machine.Operand
import FlowAlign.Machine.Stream
import FlowAlign.Main
import FlowAlign.Measure
import FlowAlign.Note
import FlowAlign.Opcode.Class
import FlowAlign.Opcode.Tables
import FlowAlign.Position
import FlowAlign.Program
import FlowAlign.Proofs.Align.Adjusted
import FlowAlign.Proofs.Align.Agreement
import FlowAlign.Proofs.Align.Chain
import FlowAlign.Proofs.Align.Cheapest
import FlowAlign.Proofs.Align.Congruence
import FlowAlign.Proofs.Align.Cover
import FlowAlign.Proofs.Align.Diagonal
import FlowAlign.Proofs.Align.Eligible
import FlowAlign.Proofs.Align.Entries
import FlowAlign.Proofs.Align.Identity
import FlowAlign.Proofs.Align.Longest
import FlowAlign.Proofs.Align.Names
import FlowAlign.Proofs.Align.Namesakes
import FlowAlign.Proofs.Align.Optimal
import FlowAlign.Proofs.Align.Path
import FlowAlign.Proofs.Align.Refinement
import FlowAlign.Proofs.Align.Ties
import FlowAlign.Proofs.Align.Topology
import FlowAlign.Proofs.Align.Unrefined
import FlowAlign.Proofs.Avr.Encoding
import FlowAlign.Proofs.Avr.Skip
import FlowAlign.Proofs.Avr.Tiling
import FlowAlign.Proofs.Bitcode.Blocks
import FlowAlign.Proofs.Bitcode.Terminator
import FlowAlign.Proofs.Blame
import FlowAlign.Proofs.Code.BasicBlocks
import FlowAlign.Proofs.Code.Canonical
import FlowAlign.Proofs.Code.Flow
import FlowAlign.Proofs.Code.Formation
import FlowAlign.Proofs.Code.Invariance
import FlowAlign.Proofs.Code.Layout
import FlowAlign.Proofs.Code.Order
import FlowAlign.Proofs.Code.Postorder
import FlowAlign.Proofs.Code.Pruning
import FlowAlign.Proofs.Code.Rearrangement
import FlowAlign.Proofs.Code.Renaming
import FlowAlign.Proofs.Code.Structured
import FlowAlign.Proofs.Code.Targets
import FlowAlign.Proofs.Code.Unresolved
import FlowAlign.Proofs.CommandLine.Comparison
import FlowAlign.Proofs.CommandLine.Ending
import FlowAlign.Proofs.Compare.Isolation
import FlowAlign.Proofs.Compare.Pairing
import FlowAlign.Proofs.Compare.Verdict
import FlowAlign.Proofs.Distinct
import FlowAlign.Proofs.Edit.Levenshtein
import FlowAlign.Proofs.Edit.Script
import FlowAlign.Proofs.Edit.Shortest
import FlowAlign.Proofs.Edit.Spread
import FlowAlign.Proofs.Edit.Table
import FlowAlign.Proofs.Edit.Word
import FlowAlign.Proofs.Files
import FlowAlign.Proofs.Graph.Reachable
import FlowAlign.Proofs.Graph.Relabelling
import FlowAlign.Proofs.Graph.Search
import FlowAlign.Proofs.Graph.Shape
import FlowAlign.Proofs.Graph.WellFormed
import FlowAlign.Proofs.Image.Archive
import FlowAlign.Proofs.Image.ArchiveLayout
import FlowAlign.Proofs.Image.Bytes
import FlowAlign.Proofs.Image.Extent
import FlowAlign.Proofs.Image.Universal
import FlowAlign.Proofs.Image.UniversalLayout
import FlowAlign.Proofs.Likeness
import FlowAlign.Proofs.Literal
import FlowAlign.Proofs.Load.Native
import FlowAlign.Proofs.Load.Universal
import FlowAlign.Proofs.Machine.JumpTable
import FlowAlign.Proofs.Measure
import FlowAlign.Proofs.Opcode.Condition
import FlowAlign.Proofs.Outcome
import FlowAlign.Proofs.Position
import FlowAlign.Proofs.Program
import FlowAlign.Proofs.Quantity.Rational
import FlowAlign.Proofs.Related
import FlowAlign.Proofs.Report.Lines
import FlowAlign.Proofs.Report.Output
import FlowAlign.Proofs.Report.Rows
import FlowAlign.Proofs.Symbol.Demangle
import FlowAlign.Proofs.Symbol.Escapes
import FlowAlign.Proofs.Text.Affix
import FlowAlign.Proofs.Text.Ascii
import FlowAlign.Proofs.Text.Csv
import FlowAlign.Proofs.Text.Json
import FlowAlign.Proofs.Walk
import FlowAlign.Quantity
import FlowAlign.Quantity.Instances
import FlowAlign.Report.Csv
import FlowAlign.Report.Json
import FlowAlign.Report.Render
import FlowAlign.Report.Result
import FlowAlign.Report.Rows
import FlowAlign.Report.Save
import FlowAlign.Symbol
import FlowAlign.Table
import FlowAlign.Text.Affix
import FlowAlign.Text.Blank
import FlowAlign.Text.Case
import FlowAlign.Text.CaseTable
import FlowAlign.Text.CodePoint
import FlowAlign.Text.Csv
import FlowAlign.Text.Csv.Reader
import FlowAlign.Text.Digit
import FlowAlign.Text.Hex
import FlowAlign.Text.Json
import FlowAlign.Text.Json.Reader
import FlowAlign.Text.Numeral
import FlowAlign.Text.Printable
import FlowAlign.Text.Quoted
import FlowAlign.Text.Ranges
import FlowAlign.Text.Utf8
import FlowAlign.Text.Word
import FlowAlign.Token
import FlowAlign.Toolkit
import FlowAlign.Verbosity
