import TableCalc.Proofs.Document.Legible

/-!
Writing a document and reading it again. What was read is legible, and its cells are trimmed, so it
is read back with its tables padded; and padding does not show when a table is written.
-/

namespace TableCalc

open Text

namespace TableBlock

variable (block : TableBlock)

theorem length_alignments_padded : block.padded.alignments.length = block.columnCount := by
  have hle : block.alignments.length ≤ block.columnCount := Nat.le_max_right _ _
  simp only [padded, List.rightpad, List.length_append, List.length_replicate]
  omega

theorem columnCount_padded : block.padded.columnCount = block.columnCount := by
  have hcolumns : block.padded.table.extent.columns ≤ block.columnCount := by
    refine (Grid.widest_le_iff _ _).mpr fun row hrow => ?_
    obtain ⟨short, hshort, rfl⟩ := List.mem_map.mp hrow
    rw [Grid.length_padRow]
    exact Nat.max_le.mpr ⟨length_le_columnCount hshort, Nat.le_refl _⟩
  rw [columnCount, length_alignments_padded, Nat.max_eq_right hcolumns]

theorem alignment_padded (column : Nat) :
    block.padded.alignment column = block.alignment column := by
  rw [alignment, alignment, padded, List.rightpad, List.getElem?_append]
  split
  · rfl
  · next h =>
    rw [List.getElem?_replicate, List.getElem?_eq_none (by omega)]
    split <;> rfl

theorem cellChars_padRow (width : Nat) (row : List String) (column : Nat) :
    cellChars (Grid.padRow width row) column = cellChars row column := by
  rw [cellChars, cellChars, Grid.getElem?_padRow]

theorem widths_padded : block.padded.widths = block.widths := by
  have hwidth (column : Nat) : block.padded.width column = block.width column := by
    rw [width, width, padded, List.map_map]
    simp only [Function.comp_def, cellChars_padRow]
  rw [widths, widths, columnCount_padded]
  exact List.map_congr_left fun column _ => hwidth column

/-- Padding a table does not show in its lines. -/
theorem lines_padded : block.padded.lines = block.lines := by
  have hrow (row : List String) :
      block.padded.rowLine block.widths (Grid.padRow block.columnCount row) =
        block.rowLine block.widths row := by
    simp only [rowLine, alignment_padded, cellChars_padRow]
  have hseparator : block.padded.separatorLine block.widths = block.separatorLine block.widths := by
    simp only [separatorLine, alignment_padded]
  have hrows : block.padded.table.rows.map (block.padded.rowLine block.widths) =
      block.table.rows.map (block.rowLine block.widths) := by
    rw [padded, List.map_map]
    exact List.map_congr_left fun row _ => hrow row
  rw [lines, lines, widths_padded, hseparator, hrows]

end TableBlock

namespace Document

theorem render_padded (document : Document) : document.padded.render = document.render := by
  have hlines (block : Block) : (block.mapTable TableBlock.padded).lines = block.lines := by
    cases block with
    | text line => rfl
    | table block => rw [Block.mapTable, Block.lines, TableBlock.lines_padded]; rfl
  rw [render, render, padded, List.flatMap_map]
  simp only [hlines]

/-- Lines that are alike for the division into blocks. -/
structure SameKind (line other : List Char) : Prop where
  table : isTableLine line = isTableLine other
  separator : isSeparator line = isSeparator other
  directive : isDirective line = isDirective other

/-- A line of a text whose blanks are spaces, tabs and line feeds. -/
structure CleanLine (line : List Char) : Prop where
  plain : PlainLine line
  feed : '\n' ∉ line

theorem CleanLine.isLine {line : List Char} (h : CleanLine line) : IsLine line := by
  refine ⟨h.feed, fun hlast => ?_⟩
  rcases h.plain '\r' (List.mem_of_getLast? hlast) (by decide) with heq | heq <;>
    exact absurd heq (by decide)

/-- The dash of a separator line stands in some column. -/
theorem columnCount_readTable_pos {header separator : List Char}
    {body directives : List (List Char)} (hseparator : isSeparator separator = true) :
    0 < (readTable header separator body directives).columnCount := by
  obtain ⟨text, htext, _⟩ :=
    exists_mem_splitRow (isSeparator_iff.mp hseparator).2.1 (by decide) (by decide)
  have halignments : 0 < (readTable header separator body directives).alignments.length := by
    rw [readTable, List.length_map]
    exact List.length_pos_of_mem htext
  exact Nat.lt_of_lt_of_le halignments (Nat.le_max_right _ _)

/-- Lines without line feeds have cells without them. -/
theorem onOneLine_readTable {header separator : List Char} {body directives : List (List Char)}
    (hlines : ∀ line ∈ header :: body, '\n' ∉ line) :
    AllCells OnOneLine (readTable header separator body directives).table.rows := by
  intro row hrow text htext hfeed
  obtain ⟨line, hline, rfl⟩ := List.mem_map.mp hrow
  exact hlines line hline (mem_of_mem_splitRow htext hfeed)

theorem legible_readTable {header separator : List Char} {body directives : List (List Char)}
    (hseparator : isSeparator separator = true)
    (hlines : ∀ line ∈ header :: body, '\n' ∉ line)
    (hdirectives : ∀ line ∈ directives, isDirective line = true ∧ IsLine line) :
    (readTable header separator body directives).Legible where
  header := List.cons_ne_nil _ _
  columns := columnCount_readTable_pos hseparator
  cells row hrow text htext := by
    refine ⟨?_, onOneLine_readTable hlines row hrow text htext⟩
    obtain ⟨line, _, rfl⟩ := List.mem_map.mp hrow
    exact pipesEscaped_of_mem_splitRow htext
  directives line hline := by
    obtain ⟨cs, hcs, rfl⟩ := List.mem_map.mp hline
    rw [String.toList_ofList]
    exact hdirectives cs hcs

namespace Divided

variable {ls : List (List Char)} {blocks : List Block}

theorem blocks_legible (h : Divided ls blocks) (hls : ∀ line ∈ ls, CleanLine line) :
    ∀ block ∈ blocks, block.Legible := by
  induction h with
  | nil => simp
  | @text line rest blocks _ _ ih =>
    rw [List.forall_mem_cons] at hls ⊢
    refine ⟨?_, ih hls.2⟩
    rw [Block.Legible, String.toList_ofList]
    exact hls.1.isLine
  | @table header separator body directives rest blocks _ second _ directive_lines _ _ _ ih =>
    simp only [List.forall_mem_cons, List.forall_mem_append] at hls ⊢
    obtain ⟨hheader, _, hbody, hdirectives, hrest⟩ := hls
    refine ⟨legible_readTable second ?_ ?_, ih hrest⟩
    · rw [List.forall_mem_cons]
      exact ⟨hheader.feed, fun line hline => (hbody line hline).feed⟩
    · exact fun line hline => ⟨directive_lines line hline, (hdirectives line hline).isLine⟩

/-- A block starts with a line of the kind of the line that it was read from. -/
theorem sameKind_head (h : Divided ls blocks) (hls : ∀ line ∈ ls, CleanLine line) :
    ∀ block ∈ blocks.head?, ∃ line ∈ ls.head?, SameKind line block.firstLine := by
  have hlegible := h.blocks_legible hls
  cases h with
  | nil => simp
  | @text line rest blocks _ _ =>
    rintro _ ⟨⟩
    refine ⟨line, rfl, ?_⟩
    rw [Block.firstLine, String.toList_ofList]
    exact ⟨rfl, rfl, rfl⟩
  | @table header separator body directives rest blocks first second _ _ _ _ _ =>
    rintro _ ⟨⟩
    have hcolumns := (hlegible _ List.mem_cons_self : TableBlock.Legible _).columns
    have hwritten := TableBlock.isTableLine_rowLine hcolumns (splitRow header)
    have hheader := (hls header List.mem_cons_self).plain
    refine ⟨header, rfl, first.trans hwritten.symm, ?_, ?_⟩
    · rw [Bool.eq_iff_iff, isSeparator_iff_separating hheader first]
      exact (TableBlock.isSeparator_rowLine hcolumns
        (TableBlock.length_le_columnCount List.mem_cons_self)).symm
    · exact (isDirective_eq_false first).trans (isDirective_eq_false hwritten).symm

theorem endsBefore (h : Divided ls blocks) (hls : ∀ line ∈ ls, CleanLine line) :
    blocks.IsChain Block.EndsBefore := by
  induction h with
  | nil => exact .nil
  | @text line rest blocks header more ih =>
    rw [List.forall_mem_cons] at hls
    refine List.isChain_cons.mpr ⟨fun next hnext htable => ?_, ih hls.2⟩
    rw [String.toList_ofList] at htable
    obtain ⟨line', hline', hkind⟩ := more.sameKind_head hls.2 next hnext
    rw [← hkind.separator]
    exact header htable line' hline'
  | @table header separator body directives rest blocks _ _ _ _ body_ends directives_end more ih =>
    simp only [List.forall_mem_cons, List.forall_mem_append] at hls
    obtain ⟨_, _, _, _, hrest⟩ := hls
    refine List.isChain_cons.mpr ⟨fun next hnext => ?_, ih hrest⟩
    obtain ⟨line, hline, hkind⟩ := more.sameKind_head hrest next hnext
    refine ⟨fun hnone => ?_, ?_⟩
    · rw [← hkind.table]
      exact body_ends (List.map_eq_nil_iff.mp hnone) line hline
    · rw [← hkind.directive]
      exact directives_end line hline

/-- Only an empty line is read as an empty text. -/
theorem getLast?_eq_nil (h : Divided ls blocks) (hlast : blocks.getLast? = some (.text "")) :
    ls.getLast? = some [] := by
  induction h with
  | nil => cases hlast
  | @text line rest blocks _ more ih =>
    by_cases hblocks : blocks = []
    · rw [hblocks, List.getLast?_singleton, Option.some.injEq, Block.text.injEq,
        String.ofList_eq_empty_iff] at hlast
      rw [more.eq_nil_iff.mpr hblocks, hlast]
      rfl
    · rw [List.getLast?_cons_of_ne_nil hblocks] at hlast
      rw [List.getLast?_cons_of_ne_nil (mt more.eq_nil_iff.mp hblocks)]
      exact ih hlast
  | @table header separator body directives rest blocks _ _ _ _ _ _ more ih =>
    by_cases hblocks : blocks = []
    · rw [hblocks, List.getLast?_singleton] at hlast
      cases hlast
    · rw [List.getLast?_cons_of_ne_nil hblocks] at hlast
      have hrest := ih hlast
      simp [List.getLast?_cons, List.getLast?_append, hrest]

theorem map_trimmed (h : Divided ls blocks) :
    blocks.map (Block.mapTable TableBlock.trimmed) = blocks := by
  induction h with
  | nil => rfl
  | text _ _ ih => rw [List.map_cons, ih]; rfl
  | @table header separator body directives _ _ _ _ _ _ _ _ _ ih =>
    have hrow (line : List Char) : (splitRow line).map Text.trimmed = splitRow line :=
      (List.map_congr_left fun text htext => trimmed_of_mem_splitRow htext).trans (List.map_id _)
    rw [List.map_cons, ih, Block.mapTable, TableBlock.trimmed, readTable, List.map_map]
    simp only [Function.comp_def, hrow]

end Divided

/-- The cells of a document that was read are trimmed. -/
theorem trimmed_read (markdown : String) : (read markdown).trimmed = read markdown := by
  rw [trimmed, read, (divided_readBlocks _).map_trimmed]

theorem legible_read {markdown : String}
    (hplain : PlainText markdown.toList) :
    (read markdown).Legible := by
  have hdivided := divided_readBlocks (lines markdown.toList)
  have hclean : ∀ line ∈ lines markdown.toList, CleanLine line := by
    intro line hline
    refine ⟨fun c hc hb => ?_, fun hfeed => (mem_of_mem_lines hline hfeed).2 rfl⟩
    obtain ⟨hmem, hfeed⟩ := mem_of_mem_lines hline hc
    rcases hplain c hmem hb with hspace | htab | heq
    · exact .inl hspace
    · exact .inr htab
    · exact absurd heq hfeed
  constructor
  · exact hdivided.blocks_legible hclean
  · exact hdivided.endsBefore hclean
  · exact fun hending hlast => getLast?_lines hending (hdivided.getLast?_eq_nil hlast)
  · exact fun hending hnil => lines_ne_nil_of_ends hending (hdivided.eq_nil_iff.mpr hnil)

/-- Writing and reading are inverse up to layout. A document that was read from a text whose blanks
are spaces, tabs and line feeds is, written and read again, the same document with its tables
padded: the same blocks in the same order, with the same lines of text, the same directives and the
same ending, and in each table the same cells and alignments, filled up with blank cells and
unmarked columns to the number of columns. Hence it is written in the same way again. -/
theorem read_render_read {markdown : String}
    (hplain : PlainText markdown.toList) :
    read (read markdown).render = (read markdown).padded ∧
      (read (read markdown).render).render = (read markdown).render := by
  have hread := (legible_read hplain).read_render
  rw [trimmed_read] at hread
  exact ⟨hread, hread ▸ render_padded (read markdown)⟩

/-- A line that starts with a pipe and is text, a table with an escaped pipe, a row that is not
closed, a separator line wider than the rows and a short row, and below its directive another table,
whose header looks like a separator line. -/
theorem read_render_read_lookalikes :
    let markdown :=
      "| - |\n| a\\|b | c\n|:-:|-|-|\n| 1 |\n<!-- TBLFM: @2$1=1 -->\n| - |\n|-|\n\n| x"
    PlainText markdown.toList ∧
      read (read markdown).render = (read markdown).padded ∧
      (read (read markdown).render).render = (read markdown).render := by
  intro markdown
  have hplain : PlainText markdown.toList := by decide +kernel
  exact ⟨hplain, read_render_read hplain⟩

end Document

end TableCalc
