import FlowAlign.Proofs.Text.Json
import FlowAlign.Report.Render

/-!
What an output tells of a result. In every format the entry of each compared pair stands in it as a
whole, and all but the comma separated values always have bytes.
-/

namespace FlowAlign

namespace Render

theorem closeSection_cells (rows : List TableRow) :
    (closeSection rows).map TableRow.cells = rows.map TableRow.cells := by
  fun_induction closeSection rows with
  | case1 => rfl
  | case2 last => rfl
  | case3 row rest _ ih => rw [List.map_cons, List.map_cons, ih]

theorem infix_printed {part text : String} (inside : part.toList <:+: text.toList) :
    (printed part).toList <:+: (printed text).toList := by
  simp only [printed, String.toList_ofList]
  exact inside.filter _

variable {α : Type}

/-- Items that show a block: its labels in a line when it matches, else its header and its rows in a
table. -/
inductive ShowsBlock (items : List Item) (block : BlockDiff α) : Prop
  | named {text style} : block.status = .matched → .line text style ∈ items →
      (printed (block.primaryLabel ++ "=" ++ block.secondaryLabel)).toList <:+: text.toList →
      ShowsBlock items block
  | listed {title style columns rows} : block.status ≠ .matched →
      .table title style columns rows ∈ items →
      ((block.header :: block.rows).map fun row => (tableRow row).cells) <:+:
        rows.map TableRow.cells →
      ShowsBlock items block

theorem ShowsBlock.mono {items others : List Item} {block : BlockDiff α}
    (shown : ShowsBlock items block) (inside : items ⊆ others) : ShowsBlock others block := by
  cases shown with
  | named matched member part => exact .named matched (inside member) part
  | listed differs member part => exact .listed differs (inside member) part

theorem blockRows_cells (block : BlockDiff α) :
    (blockRows block).map TableRow.cells =
      (block.header :: block.rows).map fun row => (tableRow row).cells := by
  rw [blockRows, closeSection_cells, List.map_map]
  rfl

/-- Items that show the result of a pair: its names and warnings, its verdict and all its blocks, or
the error that stopped it. -/
structure Shows (items : List Item) (diff : FunctionDiff α) : Prop where
  title : ruled (diff.primaryName ++ " / " ++ diff.secondaryName) "bold" ∈ items
  warnings : ∀ warning ∈ diff.warnings, lined ("warning: " ++ warning) "yellow" ∈ items
  verdict : diff.status ≠ .error → ∃ counts, lined (diff.status.name ++ ": " ++ counts) "" ∈ items
  blocks : diff.status ≠ .error → ∀ block ∈ diff.blocks, ShowsBlock items block
  failure : diff.status = .error →
    lined ("internal error: " ++ diff.error.getD "None") "bold red" ∈ items

/-- The items of a group show every block of it. -/
theorem groupItems_shows {diff : FunctionDiff α} {block : BlockDiff α}
    (member : block ∈ diff.blocks) : ShowsBlock (groupItems diff block.status) block := by
  have grouped : block ∈ diff.group block.status := List.mem_filter.mpr ⟨member, by simp⟩
  have filled : (diff.group block.status).isEmpty = false :=
    List.isEmpty_eq_false_iff_exists_mem.mpr ⟨block, grouped⟩
  by_cases matched : block.status = .matched
  · rw [groupItems, filled, if_neg (by simp), if_pos matched]
    refine .named matched (List.mem_singleton_self _) (infix_printed ?_)
    have label : block.primaryLabel ++ "=" ++ block.secondaryLabel ∈ (diff.group block.status).map
        fun block => block.primaryLabel ++ "=" ++ block.secondaryLabel :=
      List.mem_map.mpr ⟨block, grouped, rfl⟩
    exact (Text.infix_intercalate ", " label).trans (Text.infix_behind _ _)
  · rw [groupItems, filled, if_neg (by simp), if_neg matched]
    refine .listed matched (List.mem_singleton_self _) ?_
    rw [← blockRows_cells, List.flatMap_def, List.map_flatten]
    exact List.infix_of_mem_flatten (List.mem_map_of_mem (List.mem_map_of_mem grouped))

theorem mem_statusOrder (status : BlockStatus) : status ∈ statusOrder := by
  cases status <;> decide

theorem functionItems_settled {diff : FunctionDiff α} (settled : diff.status ≠ .error) :
    ∃ counts, lined (diff.status.name ++ ": " ++ counts) "" :: statusOrder.flatMap (groupItems diff)
      <:+ functionItems diff := by
  refine ⟨", ".intercalate (BlockStatus.all.map fun status =>
    toString (diff.count status) ++ " " ++ status.name), ?_⟩
  rw [functionItems, if_neg settled]
  exact List.suffix_append _ _

theorem functionItems_shows (diff : FunctionDiff α) : Shows (functionItems diff) diff := by
  refine ⟨List.mem_cons_self, ?_, ?_, ?_, ?_⟩
  · intro warning member
    exact List.mem_append_left _ (List.mem_cons_of_mem _ (List.mem_map.mpr ⟨warning, member, rfl⟩))
  · intro settled
    obtain ⟨counts, body⟩ := functionItems_settled settled
    exact ⟨counts, body.subset List.mem_cons_self⟩
  · intro settled block member
    obtain ⟨counts, body⟩ := functionItems_settled settled
    refine (groupItems_shows member).mono fun item inside => body.subset ?_
    exact List.mem_cons_of_mem _
      (List.mem_flatMap.mpr ⟨block.status, mem_statusOrder block.status, inside⟩)
  · intro failed
    rw [functionItems, if_pos failed]
    exact List.mem_append_right _ (List.mem_singleton_self _)

end Render

/-- Whether an output in a format tells of a pair all that its result holds. Blocks that match are
named only in the printed form, and a pair that failed has no lines of comma separated values. -/
def Output.Tells (output : Output) (diff : FunctionDiff Float) : OutputFormat → Prop
  | .text => ∃ own, own <:+: output.items ∧ Render.Shows own diff
  | .json => (diff.toJson.indented 2).toList <:+: output.text.toList ∧
      ∀ message, diff.error = some message →
        (Json.quoteText "error" ++ ": " ++ Json.quoteText message).toList <:+:
          (diff.toJson.indented 2).toList
  | .csv => (diff.blocks.flatMap fun block => (block.csvLines
      [diff.primaryName, diff.secondaryName]).flatMap Text.csvLine) <:+: output.text.toList

namespace ProgramDiff

theorem items_hold {diff : ProgramDiff Float} {entry : FunctionDiff Float}
    (member : entry ∈ diff.functions) : Render.functionItems entry <:+: Render.items diff := by
  have inside : Render.functionItems entry <:+: diff.functions.flatMap Render.functionItems :=
    List.infix_of_mem_flatten (List.mem_map_of_mem member)
  rw [Render.items, List.append_assoc, List.append_assoc]
  exact inside.trans (List.prefix_append _ _).isInfix

theorem json_holds {diff : ProgramDiff Float} {entry : FunctionDiff Float}
    (member : entry ∈ diff.functions) :
    (entry.toJson.indented 2).toList <:+: (diff.toJson.indented 0).toList := by
  have listed : (entry.toJson.indented 2).toList <:+:
      ((Json.list (diff.functions.map FunctionDiff.toJson)).indented 1).toList :=
    Json.infix_list 1 (List.mem_map_of_mem member)
  have field : ("functions", Json.list (diff.functions.map FunctionDiff.toJson)) ∈
      [("primary", .text diff.primaryName), ("secondary", .text diff.secondaryName),
        ("has_diff", .bool diff.hasDiff), ("added", .list (diff.added.map Json.text)),
        ("removed", .list (diff.removed.map Json.text)),
        ("functions", .list (diff.functions.map FunctionDiff.toJson))] := by simp
  exact listed.trans ((Text.infix_behind _ _).trans (Json.infix_object 0 field))

theorem json_holds_error {entry : FunctionDiff Float} {message : String}
    (failed : entry.error = some message) :
    (Json.quoteText "error" ++ ": " ++ Json.quoteText message).toList <:+:
      (entry.toJson.indented 2).toList := by
  have value : (Json.ofText? entry.error).indented 3 = Json.quoteText message := by
    rw [failed]
    rfl
  rw [← value]
  refine Json.infix_object 2 ?_
  simp

theorem csv_holds {diff : ProgramDiff Float} {entry : FunctionDiff Float}
    (member : entry ∈ diff.functions) :
    (entry.blocks.flatMap fun block => (block.csvLines
      [entry.primaryName, entry.secondaryName]).flatMap Text.csvLine) <:+: diff.toCsv.toList := by
  have lines : (entry.blocks.flatMap (BlockDiff.csvLines [entry.primaryName, entry.secondaryName]))
      <:+: diff.csvLines := List.infix_of_mem_flatten (List.mem_map.mpr ⟨entry, member, rfl⟩)
  rw [toCsv, Text.csv, String.toList_ofList, ← List.flatMap_assoc]
  exact (lines.trans (List.suffix_cons _ _).isInfix).flatMap _

/-- Every format tells of every pair. -/
theorem render_tells (diff : ProgramDiff Float) (format : OutputFormat)
    {entry : FunctionDiff Float} (member : entry ∈ diff.functions) :
    (diff.render format).Tells entry format := by
  cases format with
  | text => exact ⟨_, items_hold member, Render.functionItems_shows entry⟩
  | json =>
      refine ⟨?_, fun message failed => json_holds_error failed⟩
      simp only [render, String.toList_append]
      exact (json_holds member).trans (List.prefix_append _ _).isInfix
  | csv => exact csv_holds member

/-- Whether a surrogate stands in the lines of comma separated values. -/
def holdsSurrogate (diff : ProgramDiff Float) : Bool :=
  (Text.pointsOf ((csvHeader :: diff.csvLines).flatMap Text.csvLine)).any Text.isSurrogate

theorem toCsv_unencodable_iff (diff : ProgramDiff Float) :
    Text.encodeUtf8? diff.toCsv = none ↔ diff.holdsSurrogate = true := by
  rw [Text.encodeUtf8?, Text.hasSurrogate, Text.points_eq_pointsOf, toCsv, Text.csv,
    String.toList_ofList, holdsSurrogate]
  split
  · next held => exact iff_of_true rfl held
  · next clear => exact iff_of_false (Option.some_ne_none _) clear

/-- Only comma separated values may have no bytes. -/
theorem render_encodable (diff : ProgramDiff Float) {format : OutputFormat} (other : format ≠ .csv) :
    ∃ bytes, Text.encodeUtf8? (diff.render format).text = some bytes := by
  apply Text.encodeUtf8?_ascii
  cases format with
  | text => exact (by decide : Text.IsAscii "")
  | json => exact (Json.isAscii_indented 0 _).append (by decide)
  | csv => exact absurd rfl other

end ProgramDiff

end FlowAlign
