import FlowAlign.Edit.Distance
import FlowAlign.Graph.Basic
import FlowAlign.Quantity
import Std.Data.TreeMap

/-!
Similarity of token sequences: one minus the edit distance over the longer length. Tokens are
numbered in the order in which they are first met, and results are kept for pairs met again.
-/

namespace FlowAlign

structure Measure (α : Type) where
  /-- The number of a token is the position of its key. -/
  book : List Token.Key
  known : Std.TreeMap (List Nat) α

namespace Measure

variable {α : Type} [Quantity α]

def empty : Measure α :=
  { book := [], known := {} }

/-- Number of a key, which is entered at the end if it is new. -/
def number (book : List Token.Key) (key : Token.Key) : List Token.Key × Nat :=
  match book.idxOf? key with
  | some code => (book, code)
  | none => (book ++ [key], book.length)

def numberAll (book : List Token.Key) : List Token → List Token.Key × List Nat
  | [] => (book, [])
  | token :: rest =>
      let (entered, code) := number book token.key
      let (final, codes) := numberAll entered rest
      (final, code :: codes)

/-- Codes of a token sequence; structurally equal tokens have the same code. -/
def encode (measure : Measure α) (tokens : List Token) : Measure α × List Nat :=
  let (book, codes) := numberAll measure.book tokens
  ({ measure with book := book }, codes)

def pairKey (primary secondary : List Nat) : List Nat :=
  primary.length :: (primary ++ secondary)

def ratio (primary secondary : List Nat) : α :=
  let longest := max primary.length secondary.length
  if longest = 0 ∨ primary = secondary then Quantity.whole 1
  else Quantity.whole 1 - Quantity.whole (Edit.distance primary secondary) / Quantity.whole longest

/-- Similarity of two coded sequences, taken from the known results when it is among them. -/
def compare (measure : Measure α) (primary secondary : List Nat) : Measure α × α :=
  let key := pairKey primary secondary
  match measure.known[key]? with
  | some value => (measure, value)
  | none =>
      let value := ratio primary secondary
      ({ measure with known := measure.known.insert key value }, value)

/-- Similarity of two token sequences; two empty ones are fully similar. -/
def similarity (measure : Measure α) (primary secondary : List Token) : Measure α × α :=
  let (measure, first) := measure.encode primary
  let (measure, second) := measure.encode secondary
  measure.compare first second

def encodeAll (measure : Measure α) : List (List Token) → Measure α × List (List Nat)
  | [] => (measure, [])
  | tokens :: rest =>
      let (measure, codes) := measure.encode tokens
      let (measure, others) := measure.encodeAll rest
      (measure, codes :: others)

def compareRow (measure : Measure α) (primary : List Nat) :
    List (List Nat) → Measure α × List α
  | [] => (measure, [])
  | secondary :: rest =>
      let (measure, value) := measure.compare primary secondary
      let (measure, others) := measure.compareRow primary rest
      (measure, value :: others)

def compareRows (measure : Measure α) (secondary : List (List Nat)) :
    List (List Nat) → Measure α × List (List α)
  | [] => (measure, [])
  | primary :: rest =>
      let (measure, row) := measure.compareRow primary secondary
      let (measure, others) := measure.compareRows secondary rest
      (measure, row :: others)

def matrix (measure : Measure α) (primary secondary : FlowGraph) : Measure α × List (List α) :=
  let (measure, first) := measure.encodeAll (primary.blocks.map Block.tokens)
  let (measure, second) := measure.encodeAll (secondary.blocks.map Block.tokens)
  measure.compareRows second first

end Measure

end FlowAlign
