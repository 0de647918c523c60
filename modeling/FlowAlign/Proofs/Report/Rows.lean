import Mathlib
import FlowAlign.Proofs.Align.Cover
import FlowAlign.Proofs.Code.Formation
import FlowAlign.Proofs.Edit.Script
import FlowAlign.Proofs.Position
import FlowAlign.Proofs.Related
import FlowAlign.Report.Result

/-!
Side by side rows give both functions back. The rows of an aligned pair follow the edit script of its
tokens, the entries of an alignment cover the blocks of both graphs, and every token has its text, so
nothing is lost, repeated or out of order on either side.
-/

namespace FlowAlign

namespace FlowGraph

def textsAt (graph : FlowGraph) (position : Nat) : List String :=
  graph.display.texts.getD position []

def keysAt (graph : FlowGraph) (position : Nat) : List Token.Key :=
  (graph.blockAt position).tokens.map Token.key

theorem pick_blockAt (graph : FlowGraph) {position : Nat} (inside : position < graph.size) :
    Position.pick graph.blocks position = .ok (graph.blockAt position) :=
  Position.pick_of_lt inside _

/-- All that rows are made of is there: a label for every block and a text for every token. -/
structure Displayed (graph : FlowGraph) : Prop where
  labels : graph.display.labels.length = graph.size
  texts : graph.display.texts.map List.length = graph.blocks.map fun block => block.tokens.length

theorem Canonical.displayed {graph : FlowGraph} {blocks : List CodeBlock}
    (canonical : graph.Canonical blocks) : graph.Displayed :=
  ⟨canonical.formed.labelled, canonical.texts⟩

namespace Displayed

variable {graph : FlowGraph} (displayed : graph.Displayed) {position : Nat}

include displayed

theorem length_texts : graph.display.texts.length = graph.size := by
  simpa [FlowGraph.size] using congrArg List.length displayed.texts

theorem length_textsAt (inside : position < graph.size) :
    (graph.textsAt position).length = (graph.keysAt position).length := by
  have found : position < graph.display.texts.length := by rwa [displayed.length_texts]
  have lengths := congrArg (fun lengths => lengths[position]?) displayed.texts
  simpa [textsAt, keysAt, getElem?_blockAt inside, found] using lengths

theorem pick_texts (inside : position < graph.size) :
    Position.pick graph.display.texts position = .ok (graph.textsAt position) :=
  Position.pick_of_lt (by rwa [displayed.length_texts]) []

theorem pick_label (inside : position < graph.size) :
    ∃ label, Position.pick graph.display.labels position = .ok label :=
  ⟨_, Position.pick_of_lt (by rwa [displayed.labels]) ""⟩

theorem flatMap_textsAt {β : Type} {items : List β} {position? : β → Option Nat}
    (all : items.filterMap position? = List.range' 0 graph.size) :
    (items.flatMap fun item => (position? item).elim [] graph.textsAt) =
      graph.display.texts.flatten := by
  have listed : (items.flatMap fun item => (position? item).elim [] graph.textsAt) =
      (items.filterMap position?).flatMap graph.textsAt := by
    clear all
    induction items with
    | nil => rfl
    | cons item rest ih =>
        cases place : position? item with
        | none => simp [place, ih]
        | some position => simp [place, ih]
  have texts : (List.range' 0 graph.size).map graph.textsAt = graph.display.texts := by
    apply List.ext_getElem
    · simp [displayed.length_texts]
    · intro position _ inside
      simp [textsAt, inside]
  rw [listed, all, List.flatMap_def, texts]

end Displayed

end FlowGraph

/-- Rows give two lists of texts back. A side that takes no part in a row is empty there. -/
structure Reconstructs (rows : List DiffRow) (primary secondary : List String) : Prop where
  operations : ∀ row ∈ rows, row.kind ≠ none
  primary_eq : (rows.filter fun row => row.kind ≠ some .insert).map DiffRow.primary = primary
  secondary_eq : (rows.filter fun row => row.kind ≠ some .delete).map DiffRow.secondary = secondary
  inserted : ∀ row ∈ rows, row.kind = some .insert → row.primary = ""
  deleted : ∀ row ∈ rows, row.kind = some .delete → row.secondary = ""

namespace Reconstructs

variable {rows others : List DiffRow} {primary secondary morePrimary moreSecondary : List String}

theorem nil : Reconstructs [] [] [] :=
  ⟨by simp, rfl, rfl, by simp, by simp⟩

theorem append (first : Reconstructs rows primary secondary)
    (second : Reconstructs others morePrimary moreSecondary) :
    Reconstructs (rows ++ others) (primary ++ morePrimary) (secondary ++ moreSecondary) := by
  constructor
  · intro row member
    exact (List.mem_append.mp member).elim (first.operations row) (second.operations row)
  · rw [List.filter_append, List.map_append, first.primary_eq, second.primary_eq]
  · rw [List.filter_append, List.map_append, first.secondary_eq, second.secondary_eq]
  · intro row member
    exact (List.mem_append.mp member).elim (first.inserted row) (second.inserted row)
  · intro row member
    exact (List.mem_append.mp member).elim (first.deleted row) (second.deleted row)

theorem pairing {op : EditOp} (isPairing : op = .keep ∨ op = .substitute) (text other : String) :
    Reconstructs [{ kind := some op, primary := text, secondary := other }] [text] [other] := by
  rcases isPairing with rfl | rfl
  · constructor <;> simp
  · constructor <;> simp

theorem insertion (text : String) :
    Reconstructs [{ kind := some .insert, primary := "", secondary := text }] [] [text] := by
  constructor <;> simp

theorem deletion (text : String) :
    Reconstructs [{ kind := some .delete, primary := text, secondary := "" }] [text] [] := by
  constructor <;> simp

theorem insertions (texts : List String) :
    Reconstructs (texts.map fun text => { kind := some .insert, primary := "", secondary := text })
      [] texts := by
  induction texts with
  | nil => exact nil
  | cons text texts ih => exact (insertion text).append ih

theorem deletions (texts : List String) :
    Reconstructs (texts.map fun text => { kind := some .delete, primary := text, secondary := "" })
      texts [] := by
  induction texts with
  | nil => exact nil
  | cons text texts ih => exact (deletion text).append ih

end Reconstructs

namespace BlockDiff

variable {α : Type}

theorem scriptRows_cons {texts others : List String} {step : Edit.Step} {steps : List Edit.Step}
    {text other : String} {rows : List DiffRow} (isText : textAt texts step.primary? = .ok text)
    (isOther : textAt others step.secondary? = .ok other)
    (later : scriptRows texts others steps = .ok rows) :
    scriptRows texts others (step :: steps) =
      .ok ({ kind := some step.op, primary := text, secondary := other } :: rows) := by
  rw [scriptRows] at later ⊢
  rw [List.mapM_cons, later, isText, isOther]
  rfl

/-- The rows of a script give back the texts from where the script starts. -/
theorem scriptRows_spec {κ : Type} {first second : List κ} {texts others : List String}
    (sameLength : texts.length = first.length) (sameLength' : others.length = second.length)
    {row column : Nat} {steps : List Edit.Step}
    (traverses : Edit.Traverses first second row column steps) :
    ∃ rows, scriptRows texts others steps = .ok rows ∧
      Reconstructs rows (texts.drop row) (others.drop column) ∧
      rows.map DiffRow.kind = steps.map fun step => some step.op := by
  -- a pair shows a text on either side, whether it is kept or substituted
  have paired {step : Edit.Step} {row column : Nat} {rest : List Edit.Step} {rows : List DiffRow}
      (isPairing : step.op = .keep ∨ step.op = .substitute) (isRow : step.primary? = some row)
      (isColumn : step.secondary? = some column) (rowInside : row < first.length)
      (columnInside : column < second.length) (later : scriptRows texts others rest = .ok rows)
      (reconstructs : Reconstructs rows (texts.drop (row + 1)) (others.drop (column + 1)))
      (kinds : rows.map DiffRow.kind = rest.map fun step => some step.op) :
      ∃ rows, scriptRows texts others (step :: rest) = .ok rows ∧
        Reconstructs rows (texts.drop row) (others.drop column) ∧
        rows.map DiffRow.kind = (step :: rest).map fun step => some step.op := by
    obtain ⟨text, picked, here⟩ := Position.pick_drop (sameLength ▸ rowInside)
    obtain ⟨other, picked', here'⟩ := Position.pick_drop (sameLength' ▸ columnInside)
    refine ⟨_, scriptRows_cons (by rw [isRow]; exact picked) (by rw [isColumn]; exact picked') later,
      ?_, by rw [List.map_cons, List.map_cons, kinds]⟩
    rw [here, here']
    exact (Reconstructs.pairing isPairing text other).append reconstructs
  induction traverses with
  | done =>
      refine ⟨[], rfl, ?_, rfl⟩
      rw [← sameLength, ← sameLength', List.drop_length, List.drop_length]
      exact .nil
  | keep isSymbol isOther _ ih =>
      obtain ⟨rows, later, reconstructs, kinds⟩ := ih
      exact paired (Or.inl rfl) rfl rfl (List.getElem?_eq_some_iff.mp isSymbol).1
        (List.getElem?_eq_some_iff.mp isOther).1 later reconstructs kinds
  | substitute isSymbol isOther _ _ ih =>
      obtain ⟨rows, later, reconstructs, kinds⟩ := ih
      exact paired (Or.inr rfl) rfl rfl (List.getElem?_eq_some_iff.mp isSymbol).1
        (List.getElem?_eq_some_iff.mp isOther).1 later reconstructs kinds
  | insert inside _ ih =>
      obtain ⟨rows, later, reconstructs, kinds⟩ := ih
      obtain ⟨other, picked, here⟩ := Position.pick_drop (sameLength' ▸ inside)
      refine ⟨_, scriptRows_cons rfl picked later, ?_, by rw [List.map_cons, List.map_cons, kinds]⟩
      rw [here]
      exact (Reconstructs.insertion other).append reconstructs
  | delete inside _ ih =>
      obtain ⟨rows, later, reconstructs, kinds⟩ := ih
      obtain ⟨text, picked, here⟩ := Position.pick_drop (sameLength ▸ inside)
      refine ⟨_, scriptRows_cons picked rfl later, ?_, by rw [List.map_cons, List.map_cons, kinds]⟩
      rw [here]
      exact (Reconstructs.deletion text).append reconstructs

section Entries

variable {alignment : Alignment α} (primaryDisplayed : alignment.primary.Displayed)
  (secondaryDisplayed : alignment.secondary.Displayed)

include primaryDisplayed secondaryDisplayed

theorem rowsOf_pairing {entry : Entry α} {row column : Nat}
    (isPrimary : entry.primary = some (row : Int)) (isSecondary : entry.secondary = some (column : Int))
    (isPair : entry.status = .matched ∨ entry.status = .modified)
    (rowInside : row < alignment.primary.size) (columnInside : column < alignment.secondary.size) :
    ∃ rows, rowsOf alignment entry (alignment.primary.textsAt row)
        (alignment.secondary.textsAt column) = .ok rows ∧
      Reconstructs rows (alignment.primary.textsAt row) (alignment.secondary.textsAt column) ∧
      (rows.countP fun row => row.kind ≠ some .keep) =
        Edit.levenshtein (alignment.primary.keysAt row) (alignment.secondary.keysAt column) := by
  obtain ⟨traverses, changes⟩ :=
    Edit.script_spec (alignment.primary.keysAt row) (alignment.secondary.keysAt column)
  obtain ⟨rows, listed, reconstructs, kinds⟩ := scriptRows_spec
    (primaryDisplayed.length_textsAt rowInside) (secondaryDisplayed.length_textsAt columnInside)
    traverses
  have first : tokensOf alignment.primary entry.primary =
      .ok (alignment.primary.blockAt row).tokens := by
    rw [isPrimary, tokensOf, alignment.primary.pick_blockAt rowInside]
    rfl
  have second : tokensOf alignment.secondary entry.secondary =
      .ok (alignment.secondary.blockAt column).tokens := by
    rw [isSecondary, tokensOf, alignment.secondary.pick_blockAt columnInside]
    rfl
  refine ⟨rows, ?_, reconstructs, ?_⟩
  · rcases isPair with status | status
    · simp only [rowsOf, status, first, second, Outcome.ok_bind]
      exact listed
    · simp only [rowsOf, status, first, second, Outcome.ok_bind]
      exact listed
  · have counted := congrArg (List.countP (· ≠ some EditOp.keep)) kinds
    rw [List.countP_map, List.countP_map] at counted
    rw [← changes, Edit.changes]
    simpa [Function.comp_def] using counted

variable [Quantity α]

/-- The diff of one step: its entry, rows that give back the texts of its blocks, and as many changes as
the tokens of a pair are apart. -/
structure Shows (options : Options α) (primary secondary : FlowGraph) (step : Step)
    (block : BlockDiff α) : Prop where
  entry_eq : block.entry = Align.entryOf options primary secondary step
  rows : Reconstructs block.rows (step.row?.elim [] primary.textsAt)
    (step.column?.elim [] secondary.textsAt)
  changes_eq : ∀ row column, step = .pairing row column →
    block.changes = Edit.levenshtein (primary.keysAt row) (secondary.keysAt column)

theorem ofEntry_shows (options : Options α) {step : Step}
    (rowInside : ∀ row, step.row? = some row → row < alignment.primary.size)
    (columnInside : ∀ column, step.column? = some column → column < alignment.secondary.size) :
    ∃ block, ofEntry alignment
        (Align.entryOf options alignment.primary alignment.secondary step) = .ok block ∧
      Shows options alignment.primary alignment.secondary step block := by
  cases step with
  | insertion column =>
      have inside := columnInside column rfl
      obtain ⟨label, isLabel⟩ := secondaryDisplayed.pick_label inside
      have isTexts := secondaryDisplayed.pick_texts inside
      simp only [ofEntry, Align.entryOf, textsOf, labelOf, rowsOf, isTexts, isLabel, Outcome.ok_bind,
        Outcome.pure_eq]
      refine ⟨_, rfl, rfl, Reconstructs.insertions _, ?_⟩
      intro row column isPairing
      cases isPairing
  | deletion row =>
      have inside := rowInside row rfl
      obtain ⟨label, isLabel⟩ := primaryDisplayed.pick_label inside
      have isTexts := primaryDisplayed.pick_texts inside
      simp only [ofEntry, Align.entryOf, textsOf, labelOf, rowsOf, isTexts, isLabel, Outcome.ok_bind,
        Outcome.pure_eq]
      refine ⟨_, rfl, rfl, Reconstructs.deletions _, ?_⟩
      intro row column isPairing
      cases isPairing
  | pairing row column =>
      have inside := rowInside row rfl
      have inside' := columnInside column rfl
      obtain ⟨label, isLabel⟩ := primaryDisplayed.pick_label inside
      obtain ⟨label', isLabel'⟩ := secondaryDisplayed.pick_label inside'
      have isTexts := primaryDisplayed.pick_texts inside
      have isTexts' := secondaryDisplayed.pick_texts inside'
      obtain ⟨rows, listed, reconstructs, changes⟩ := rowsOf_pairing primaryDisplayed
        secondaryDisplayed (Align.entryOf_primary options _ _ (.pairing row column))
        (Align.entryOf_secondary options alignment.primary alignment.secondary (.pairing row column))
        (Align.pairStatus_eq _ _ _ _) inside inside'
      rw [ofEntry, Align.entryOf_primary, Align.entryOf_secondary]
      simp only [Step.row?, Step.column?, Option.map_some, Int.ofNat_eq_natCast, textsOf, labelOf,
        isTexts, isTexts', isLabel, isLabel', listed, Outcome.ok_bind, Outcome.pure_eq]
      refine ⟨_, rfl, rfl, reconstructs, ?_⟩
      intro row column isPairing
      cases isPairing
      exact changes

end Entries

end BlockDiff

namespace FunctionDiff

variable {α : Type}

theorem filter_headers {blocks : List (BlockDiff α)}
    (operations : ∀ block ∈ blocks, ∀ row ∈ block.rows, row.kind ≠ none) :
    ((blocks.flatMap fun block => block.header :: block.rows).filter fun row => row.kind = none) =
      blocks.map BlockDiff.header := by
  induction blocks with
  | nil => rfl
  | cons block rest ih =>
      have none' : (block.rows.filter fun row => row.kind = none) = [] := by
        simpa [List.filter_eq_nil_iff] using operations block List.mem_cons_self
      have later := ih fun other member => operations other (List.mem_cons_of_mem _ member)
      rw [List.flatMap_cons, List.filter_append, later, List.filter_cons, none']
      simp [BlockDiff.header]

theorem filter_operations {blocks : List (BlockDiff α)}
    (operations : ∀ block ∈ blocks, ∀ row ∈ block.rows, row.kind ≠ none) :
    ((blocks.flatMap fun block => block.header :: block.rows).filter fun row => row.kind ≠ none) =
      blocks.flatMap BlockDiff.rows := by
  induction blocks with
  | nil => rfl
  | cons block rest ih =>
      have all : (block.rows.filter fun row => row.kind ≠ none) = block.rows := by
        simpa [List.filter_eq_self] using operations block List.mem_cons_self
      have later := ih fun other member => operations other (List.mem_cons_of_mem _ member)
      rw [List.flatMap_cons, List.filter_append, later, List.filter_cons, all]
      simp [BlockDiff.header]

variable [Quantity α]

/-- The diff of an alignment of two graphs: a header for every entry, rows that give the texts of both
graphs back, and as few changes in every pair as turn its tokens into one another. -/
structure Faithful (diff : FunctionDiff α) (alignment : Alignment α)
    (primary secondary : FlowGraph) : Prop where
  entries_eq : diff.blocks.map BlockDiff.entry = alignment.entries
  headers_eq : (diff.rows.filter fun row => row.kind = none) = diff.blocks.map BlockDiff.header
  rows : Reconstructs (diff.rows.filter fun row => row.kind ≠ none)
    primary.display.texts.flatten secondary.display.texts.flatten
  changes_least : ∀ block ∈ diff.blocks, ∀ row column : Nat,
    block.entry.primary = some (row : Int) → block.entry.secondary = some (column : Int) →
    ∃ first second, primary.blocks[row]? = some first ∧ secondary.blocks[column]? = some second ∧
      block.changes = Edit.distance (first.tokens.map Token.key) (second.tokens.map Token.key) ∧
      IsLeast {count | Edit.Turns (first.tokens.map Token.key) (second.tokens.map Token.key) count}
        block.changes
  matched_keeps : ∀ block ∈ diff.blocks, block.status = .matched →
    ∀ row ∈ block.rows, row.kind = some .keep

section Blocks

variable {options : Options α} {primary secondary : FlowGraph} {steps : List Step}
  {blocks : List (BlockDiff α)}

theorem flatMap_rows
    (shown : List.Forall₂ (BlockDiff.Shows options primary secondary) steps blocks) :
    Reconstructs (blocks.flatMap BlockDiff.rows)
      (steps.flatMap fun step => step.row?.elim [] primary.textsAt)
      (steps.flatMap fun step => step.column?.elim [] secondary.textsAt) := by
  induction shown with
  | nil => exact .nil
  | cons shows _ ih =>
      rw [List.flatMap_cons, List.flatMap_cons, List.flatMap_cons]
      exact shows.rows.append ih

/-- Only a pair is matched, and its tokens are then the same. -/
theorem matched_keeps {step : Step} {block : BlockDiff α}
    (shows : block.Shows options primary secondary step) (matched : block.status = .matched) :
    ∀ row ∈ block.rows, row.kind = some .keep := by
  rw [BlockDiff.status, shows.entry_eq] at matched
  cases step with
  | insertion column => cases matched
  | deletion row => cases matched
  | pairing row column =>
      obtain ⟨tokens, _⟩ := Align.pairStatus_matched matched
      have none' : block.changes = 0 := by
        rw [shows.changes_eq row column rfl, Edit.levenshtein_eq_zero]
        exact tokens
      rw [BlockDiff.changes, List.countP_eq_zero] at none'
      intro row member
      simpa using none' row member

/-- Blocks that show the steps of a path show both graphs. -/
theorem faithful_of_shown (path : Align.Path 0 0 steps primary.size secondary.size)
    (primaryDisplayed : primary.Displayed) (secondaryDisplayed : secondary.Displayed)
    {diff : FunctionDiff α} (shown : List.Forall₂
      (BlockDiff.Shows options primary secondary) steps diff.blocks) :
    diff.Faithful (Align.alignmentOf options primary secondary steps) primary secondary := by
  have operations : ∀ block ∈ diff.blocks, ∀ row ∈ block.rows, row.kind ≠ none := by
    intro block member
    obtain ⟨step, _, shows⟩ := mem_related shown block member
    exact shows.rows.operations
  constructor
  · exact map_related (fun _ _ shows => shows.entry_eq) shown
  · exact filter_headers operations
  · rw [FunctionDiff.rows, filter_operations operations,
      ← primaryDisplayed.flatMap_textsAt path.rows_eq,
      ← secondaryDisplayed.flatMap_textsAt path.columns_eq]
    exact flatMap_rows shown
  · intro block member row column isPrimary isSecondary
    obtain ⟨step, isStep, shows⟩ := mem_related shown block member
    rw [shows.entry_eq, Align.entryOf_primary] at isPrimary
    rw [shows.entry_eq, Align.entryOf_secondary] at isSecondary
    obtain rfl : step = .pairing row column := by
      cases step with
      | insertion column => simp [Step.row?] at isPrimary
      | deletion row => simp [Step.column?] at isSecondary
      | pairing row column => simp_all [Step.row?, Step.column?]
    have changes := shows.changes_eq row column rfl
    refine ⟨_, _, FlowGraph.getElem?_blockAt (path.row_bound isStep rfl),
      FlowGraph.getElem?_blockAt (path.column_bound isStep rfl), ?_, ?_⟩
    · rw [Edit.distance_eq]
      exact changes
    · rw [changes]
      exact Edit.levenshtein_isLeast _ _
  · intro block member matched
    obtain ⟨step, _, shows⟩ := mem_related shown block member
    exact matched_keeps shows matched

end Blocks

/-- The side by side rows of an alignment of two canonical graphs exist and give both graphs back. -/
theorem ofAlignment_faithful (options : Options α) (first second : Function)
    (graph other : FlowGraph) (alignment : Alignment α)
    (canonical : first.canonicalize.outcome = .ok graph)
    (canonical' : second.canonicalize.outcome = .ok other)
    (aligned : (Align.align options graph other).outcome = .ok alignment)
    (primaryName secondaryName : String) (warnings : List String) :
    ∃ diff, ofAlignment primaryName secondaryName alignment warnings = .ok diff ∧
      diff.Faithful alignment graph other := by
  obtain ⟨_, isCanonical⟩ := Function.exists_canonical canonical
  obtain ⟨_, isCanonical'⟩ := Function.exists_canonical canonical'
  obtain ⟨steps, path, rfl⟩ := Align.align_path options isCanonical.formed isCanonical'.formed aligned
  have each : ∀ step ∈ steps, ∃ block, BlockDiff.ofEntry
      (Align.alignmentOf options graph other steps) (Align.entryOf options graph other step) =
        .ok block ∧ block.Shows options graph other step := by
    intro step isStep
    exact BlockDiff.ofEntry_shows isCanonical.displayed isCanonical'.displayed options
      (fun row taken => path.row_bound isStep taken)
      (fun column taken => path.column_bound isStep taken)
  obtain ⟨blocks, listed, shown⟩ := Outcome.mapM_related each
  have blocksListed : (Align.alignmentOf options graph other steps).entries.mapM
      (BlockDiff.ofEntry (Align.alignmentOf options graph other steps)) = .ok blocks := by
    rw [Align.alignmentOf, List.mapM_map]
    exact listed
  simp only [ofAlignment, blocksListed, Outcome.ok_bind, Outcome.pure_eq]
  exact ⟨_, rfl, faithful_of_shown path isCanonical.displayed isCanonical'.displayed shown⟩

def plainReturn : Function :=
  { rawName := "f", name := pure "f", address := 0, format := .llvmBitcode
    stream := pure [{ address := 0, mnemonic := "ret", text := "ret", flow := .ret }] }

def delayedReturn : Function :=
  { plainReturn with
    stream := pure [{ address := 0, mnemonic := "add", text := "add" },
      { address := 1, mnemonic := "ret", text := "ret", flow := .ret }] }

def returnAlignment : Logged Fault (Alignment Rat) := do
  let graph ← plainReturn.canonicalize
  let other ← delayedReturn.canonicalize
  Align.align Options.standard graph other

theorem returnAlignment_modified :
    (returnAlignment.outcome.toOption.map fun alignment => alignment.entries.map Entry.status) =
      some [.modified] := by
  with_unfolding_all decide

theorem ofAlignment_faithful_returns : ∃ graph other alignment,
    plainReturn.canonicalize.outcome = .ok graph ∧
    delayedReturn.canonicalize.outcome = .ok other ∧
    (Align.align (Options.standard : Options Rat) graph other).outcome = .ok alignment ∧
    alignment.entries.map Entry.status = [.modified] ∧
    ∃ diff, ofAlignment "f" "f" alignment [] = .ok diff ∧ diff.Faithful alignment graph other := by
  obtain ⟨alignment, run, status⟩ := Outcome.toOption_map_eq_some returnAlignment_modified
  simp only [returnAlignment, Logged.outcome_bind] at run
  obtain ⟨graph, canonical, run⟩ := Outcome.bind_eq_ok run
  obtain ⟨other, canonical', aligned⟩ := Outcome.bind_eq_ok run
  exact ⟨graph, other, alignment, canonical, canonical', aligned, status,
    ofAlignment_faithful Options.standard plainReturn delayedReturn graph other alignment canonical
      canonical' aligned "f" "f" []⟩

end FunctionDiff

end FlowAlign
