import TableCalc.Proofs.Document.Evaluation
import TableCalc.Proofs.Engine.Padding

/-!
A table and its directives as a text. Evaluated as a document, the text of a table becomes the text
of the table that its directives make of it, or fails as they do. What a document sees of the table
is padded to a rectangle, which shows neither in the evaluation nor in the text.
-/

namespace TableCalc

open Text Document

/-- The lines of a table and the directives below it, with a line feed at the end or without one. -/
def TableBlock.text (ending : Bool) (block : TableBlock) : String :=
  .ofList (join ending (block.lines ++ block.directives.map String.toList))

/-- A table that a document can hold as it is: it has a cell, the texts of its cells are trimmed and
contain no pipe and no line feed, the separator line is not wider than the rows, and its directives
are lines that are marked as directives. -/
structure TableBlock.Presentable (block : TableBlock) : Prop where
  rows : 0 < block.table.extent.rows
  columns : 0 < block.table.extent.columns
  cells : ∀ row ∈ block.table.rows, ∀ text ∈ row,
    Text.trimmed text = text ∧ '|' ∉ text.toList ∧ '\n' ∉ text.toList
  alignments : block.alignments.length ≤ block.table.extent.columns
  directives : ∀ line ∈ block.directives, directiveMark <+: line.toList ∧
    '\n' ∉ line.toList ∧ line.toList.getLast? ≠ some '\r'

theorem TableBlock.text_eq_render (block : TableBlock) (ending : Bool) :
    block.text ending = render ⟨[.table block], ending⟩ := by
  rw [text, render, List.flatMap_singleton]
  rfl

theorem Document.isDirective_of_mark {line : List Char} (h : directiveMark <+: line) :
    isDirective line = true := by
  obtain ⟨rest, rfl⟩ := h
  have hstart : trimStart (directiveMark ++ rest) = directiveMark ++ rest :=
    List.dropWhile_cons_of_neg (by decide)
  rw [isDirective, hstart, List.isPrefixOf_iff_prefix]
  exact List.prefix_append _ _

namespace TableBlock.Presentable

variable {block : TableBlock} (h : block.Presentable)

include h

theorem legible : block.Legible where
  header := List.ne_nil_of_length_pos h.rows
  columns := Nat.lt_of_lt_of_le h.columns (Nat.le_max_left _ _)
  cells row hrow text htext :=
    ⟨.of_not_mem (h.cells row hrow text htext).2.1, (h.cells row hrow text htext).2.2⟩
  directives line hline :=
    ⟨isDirective_of_mark (h.directives line hline).1, (h.directives line hline).2⟩

theorem columnCount_eq : block.columnCount = block.table.extent.columns :=
  Nat.max_eq_left h.alignments

theorem trimmed_eq : block.trimmed = block := by
  have hrows : block.table.rows.map (List.map Text.trimmed) = block.table.rows := by
    refine (List.map_congr_left fun row hrow => ?_).trans (List.map_id _)
    exact (List.map_congr_left fun text htext => (h.cells row hrow text htext).1).trans
      (List.map_id _)
  rw [TableBlock.trimmed, hrows]

/-- The document that the text of the table is read as. -/
theorem read_text (ending : Bool) :
    Document.read (block.text ending) = ⟨[.table block.padded], ending⟩ := by
  have hlegible : Document.Legible ⟨[.table block], ending⟩ := by
    constructor
    · exact List.forall_mem_singleton.mpr h.legible
    · exact .singleton _
    · exact fun _ hlast => nomatch hlast
    · exact fun _ hnil => nomatch hnil
  rw [text_eq_render, hlegible.read_render, Document.trimmed, Document.padded]
  simp only [List.map_cons, List.map_nil, Block.mapTable, h.trimmed_eq]

end TableBlock.Presentable

namespace Engine

/-- The text of a table with its directives is evaluated like the table itself: it fails with the
same error, or it becomes the text of the evaluated table with the same directives. -/
theorem evaluateMarkdown_text (engine : Engine) {block : TableBlock} (h : block.Presentable)
    (ending : Bool) :
    engine.evaluateMarkdown (block.text ending) = do
      let table ← engine.evaluate block.directives block.table
      return TableBlock.text ending { block with table := table } := by
  have hpadded : engine.evaluate block.padded.directives block.padded.table =
      Table.padTo block.table.extent.columns <$> engine.evaluate block.directives block.table := by
    rw [← evaluate_padTo, ← h.columnCount_eq]
    rfl
  rw [evaluateMarkdown, h.read_text, evaluateDocument, List.mapM_cons, List.mapM_nil,
    evaluateBlock_table, hpadded]
  cases heval : engine.evaluate block.directives block.table with
  | error e => rfl
  | ok table =>
    have hcolumns : TableBlock.columnCount { block with table := table } = block.columnCount :=
      TableBlock.columnCount_of_extent (evaluate_extent heval)
    have hafter : { block.padded with table := table.padTo block.table.extent.columns } =
        TableBlock.padded { block with table := table } := by
      rw [TableBlock.padded, TableBlock.padded, hcolumns, h.columnCount_eq]
      rfl
    refine congrArg Except.ok ?_
    rw [TableBlock.text_eq_render, ← render_padded ⟨[.table { block with table := table }], ending⟩]
    exact congrArg (fun block => render ⟨[.table block], ending⟩) hafter

/-- Rows of four lengths and a cell that ends with a backslash. The mean counts blank cells, and the
last row is filled by a target that is open at its end. -/
theorem evaluateMarkdown_text_ragged :
    let directives :=
      ["<!-- TBLFM: @>=mean(@I$1..@-1$>)::@2$2=\"a b\" -->", "<!-- TBLFM: @1$>=@2$2-->"]
    let block : TableBlock :=
      { table := ⟨[["A\\", "-", "x"], ["1"], ["2", "9"], []]⟩
        alignments := [.right, .center]
        directives := directives }
    let after : Table := ⟨[["A\\", "-", "a b"], ["1", "a b"], ["2", "9"], ["2", "2", "2"]]⟩
    block.Presentable ∧ standard.evaluate directives block.table = .ok after ∧
      standard.evaluateMarkdown (block.text true) =
        .ok (TableBlock.text true { block with table := after }) := by
  intro directives block after
  have h : block.Presentable :=
    ⟨by decide, by decide, by decide +kernel, by decide, by decide +kernel⟩
  have heval : standard.evaluate directives block.table = .ok after := by decide +kernel
  have htext := standard.evaluateMarkdown_text h true
  rw [heval] at htext
  exact ⟨h, heval, htext⟩

end Engine

end TableCalc
