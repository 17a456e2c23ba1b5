import TableCalc.Proofs.Document.Division
import TableCalc.Proofs.Text.Lines

/-!
Documents that can be read back. The lines of a legible document divide where its blocks end. Read
back, it is the document that it was, up to blanks around the texts of cells and blank cells at the
end of rows.
-/

namespace TableCalc

open Text

/-- The table with the texts of its cells trimmed. -/
def TableBlock.trimmed (block : TableBlock) : TableBlock :=
  { block with table := ⟨block.table.rows.map (List.map Text.trimmed)⟩ }

/-- The table with blank cells and unmarked columns up to its number of columns. -/
def TableBlock.padded (block : TableBlock) : TableBlock :=
  { block with
    table := ⟨block.table.rows.map (Grid.padRow block.columnCount)⟩
    alignments := block.alignments.rightpad block.columnCount .unmarked }

/-- The block with its table replaced, if it has one. -/
def Block.mapTable (f : TableBlock → TableBlock) : Block → Block
  | .text line => .text line
  | .table block => .table (f block)

/-- The document with every table trimmed. -/
def Document.trimmed (document : Document) : Document :=
  { document with blocks := document.blocks.map (Block.mapTable TableBlock.trimmed) }

/-- The document with every table padded. -/
def Document.padded (document : Document) : Document :=
  { document with blocks := document.blocks.map (Block.mapTable TableBlock.padded) }

/-- A table that has a header and a column, and whose cells and directives stay what they are when
they are written on lines. -/
structure TableBlock.Legible (block : TableBlock) : Prop where
  header : block.table.rows ≠ []
  columns : 0 < block.columnCount
  cells : Document.ConfinedRows block.table.rows
  directives : ∀ line ∈ block.directives,
    Document.isDirective line.toList = true ∧ IsLine line.toList

namespace Block

def Legible : Block → Prop
  | .text line => IsLine line.toList
  | .table block => block.Legible

/-- The first line of a block. -/
def firstLine : Block → List Char
  | .text line => line.toList
  | .table block => block.rowLine block.widths (block.table.row 0)

/-- A block that ends where the next one starts. -/
def EndsBefore (block next : Block) : Prop :=
  match block with
  | .text line => Document.isTableLine line.toList = true →
      Document.isSeparator next.firstLine = false
  | .table block => (block.directives = [] → Document.isTableLine next.firstLine = false) ∧
      Document.isDirective next.firstLine = false

end Block

/-- A document that can be read back. -/
structure Document.Legible (document : Document) : Prop where
  blocks : ∀ block ∈ document.blocks, block.Legible
  ends : document.blocks.IsChain Block.EndsBefore
  opened : document.endsWithNewline = false → document.blocks.getLast? ≠ some (.text "")
  closed : document.endsWithNewline = true → document.blocks ≠ []

namespace TableBlock

open Document

variable {block : TableBlock}

theorem length_le_columnCount {row : List String} (h : row ∈ block.table.rows) :
    row.length ≤ block.columnCount :=
  Nat.le_trans ((Grid.widest_le_iff _ _).mp (Nat.le_refl _) row h) (Nat.le_max_left _ _)

theorem extent_trimmed : block.trimmed.table.extent = block.table.extent := by
  rw [Table.extent, Table.extent, Grid.widest, Grid.widest, trimmed, List.map_map]
  simp [Function.comp_def]

theorem columnCount_trimmed : block.trimmed.columnCount = block.columnCount := by
  rw [columnCount, columnCount, extent_trimmed]
  rfl

/-- Written and read again, a table is trimmed and padded. -/
theorem Legible.readTable_eq (h : block.Legible) {header : List String} {body : List (List String)}
    (hrows : block.table.rows = header :: body) :
    readTable (block.rowLine block.widths header) (block.separatorLine block.widths)
      (body.map (block.rowLine block.widths)) (block.directives.map String.toList) =
        block.trimmed.padded := by
  have hrow : ∀ row ∈ header :: body, splitRow (block.rowLine block.widths row) =
      Grid.padRow block.columnCount (row.map Text.trimmed) := by
    rw [← hrows]
    intro row hmem
    exact splitRow_rowLine h.columns (length_le_columnCount hmem)
      fun text htext => (h.cells row hmem text htext).pipes
  have hcells : (header :: body).map (splitRow ∘ block.rowLine block.widths) =
      ((header :: body).map (List.map Text.trimmed)).map (Grid.padRow block.columnCount) := by
    rw [List.map_map]
    apply List.map_congr_left
    intro row hmem
    rw [Function.comp_apply, Function.comp_apply]
    exact hrow row hmem
  rw [readTable, padded, columnCount_trimmed, ← List.map_cons, List.map_map, hcells, ← hrows,
    splitRow_separatorLine h.columns, List.map_map]
  simp [trimmed, Function.comp_def]

theorem isTableLine_of_mem_lines (hcolumns : 0 < block.columnCount) {line : List Char}
    (hline : line ∈ block.lines) : isTableLine line = true := by
  rcases mem_lines hline with rfl | ⟨row, _, rfl⟩
  · exact (isSeparator_iff.mp (isSeparator_separatorLine hcolumns)).1
  · exact isTableLine_rowLine hcolumns row

/-- The lines of a table are lines if its cells have no line feeds. -/
theorem isLine_of_mem_lines (hcolumns : 0 < block.columnCount)
    (hcells : AllCells OnOneLine block.table.rows) {line : List Char}
    (hline : line ∈ block.lines) : IsLine line := by
  rcases mem_lines hline with rfl | ⟨row, hrow, rfl⟩
  · have hfeed : '\n' ∉ block.separatorLine block.widths := by
      intro hmem
      have hall := (isSeparator_iff.mp (isSeparator_separatorLine hcolumns)).2.2
      rw [separatorLine_eq hcolumns] at hmem hall
      rw [trim_eq_self (isTrimmed_closed _)] at hall
      exact absurd (hall _ hmem) (by decide)
    rw [separatorLine_eq hcolumns] at hfeed ⊢
    exact (isTrimmed_closed _).isLine hfeed
  · have hfeed : '\n' ∉ block.rowLine block.widths row := by
      intro hmem
      rcases mem_rowLine hcolumns hmem with hpipe | hspace | ⟨text, htext, hfeed⟩
      · exact absurd hpipe (by decide)
      · exact absurd hspace (by decide)
      · exact hcells row hrow text htext hfeed
    rw [rowLine_eq hcolumns] at hfeed ⊢
    exact (isTrimmed_closed _).isLine hfeed

theorem Legible.divided_lines (h : block.Legible) {rest : List (List Char)} {blocks : List Block}
    (hbody : block.directives = [] → ∀ next ∈ rest.head?, isTableLine next = false)
    (hdirectives : ∀ next ∈ rest.head?, isDirective next = false) (hmore : Divided rest blocks) :
    Divided ((Block.table block).lines ++ rest) (.table block.trimmed.padded :: blocks) := by
  obtain ⟨header, body, hrows⟩ := List.exists_cons_of_ne_nil h.header
  have hbodyLines : ∀ line ∈ body.map (block.rowLine block.widths), isTableLine line = true := by
    intro line hline
    obtain ⟨row, _, rfl⟩ := List.mem_map.mp hline
    exact isTableLine_rowLine h.columns row
  have hdirectiveLines : ∀ line ∈ block.directives.map String.toList, isDirective line = true := by
    intro line hline
    obtain ⟨directive, hmem, rfl⟩ := List.mem_map.mp hline
    exact (h.directives directive hmem).1
  rw [Block.lines, lines_eq hrows, ← h.readTable_eq hrows]
  simpa using Divided.table (isTableLine_rowLine h.columns header)
    (isSeparator_separatorLine h.columns) hbodyLines hdirectiveLines
    (fun hnone => hbody (List.map_eq_nil_iff.mp hnone)) hdirectives hmore

end TableBlock

namespace Block

open Document

variable {block : Block}

theorem head?_lines (h : block.Legible) : block.lines.head? = some block.firstLine := by
  cases block with
  | text line => rfl
  | table block =>
    obtain ⟨header, body, hrows⟩ := List.exists_cons_of_ne_nil h.header
    simp [lines, firstLine, TableBlock.lines_eq hrows, Table.row, hrows]

theorem isLine_of_mem_lines (h : block.Legible) {line : List Char} (hline : line ∈ block.lines) :
    IsLine line := by
  cases block with
  | text text => rwa [List.mem_singleton.mp hline]
  | table block =>
    rcases List.mem_append.mp hline with htable | hdirective
    · exact TableBlock.isLine_of_mem_lines h.columns
        (AllCells.mono h.cells fun _ hconfined => hconfined.feed) htable
    · obtain ⟨directive, hmem, rfl⟩ := List.mem_map.mp hdirective
      exact (h.directives directive hmem).2

/-- Only an empty line of text is an empty line. -/
theorem eq_text_of_nil_mem_lines (h : block.Legible) (hnil : [] ∈ block.lines) :
    block = .text "" := by
  cases block with
  | text text =>
    rw [← String.toList_eq_nil_iff.mp (List.mem_singleton.mp hnil).symm]
  | table block =>
    rcases List.mem_append.mp hnil with htable | hdirective
    · exact absurd (TableBlock.isTableLine_of_mem_lines h.columns htable) (by decide)
    · obtain ⟨directive, hmem, heq⟩ := List.mem_map.mp hdirective
      have hkind := (h.directives directive hmem).1
      rw [heq] at hkind
      exact absurd hkind (by decide)

end Block

namespace Document

theorem head?_flatMap_lines {blocks : List Block} (h : ∀ block ∈ blocks, block.Legible) :
    (blocks.flatMap Block.lines).head? = blocks.head?.map Block.firstLine := by
  cases blocks with
  | nil => rfl
  | cons block rest =>
    rw [List.flatMap_cons, List.head?_append, Block.head?_lines (h block List.mem_cons_self)]
    rfl

theorem divided_lines {blocks : List Block} (h : ∀ block ∈ blocks, block.Legible)
    (hends : blocks.IsChain Block.EndsBefore) :
    Divided (blocks.flatMap Block.lines) ((blocks.map (Block.mapTable TableBlock.trimmed)).map
      (Block.mapTable TableBlock.padded)) := by
  induction blocks with
  | nil => exact .nil
  | cons block rest ih =>
    have hrest : ∀ other ∈ rest, other.Legible := fun other hother =>
      h other (List.mem_cons_of_mem block hother)
    have hblock := h block List.mem_cons_self
    obtain ⟨hnext, hends⟩ := List.isChain_cons.mp hends
    have hmore := ih hrest hends
    -- the first line behind the block is the first line of the next block
    have hfirst {P : List Char → Prop} (hP : ∀ next ∈ rest.head?, P next.firstLine) :
        ∀ line ∈ (rest.flatMap Block.lines).head?, P line := by
      rw [head?_flatMap_lines hrest]
      intro line hline
      obtain ⟨next, hmem, rfl⟩ := Option.map_eq_some_iff.mp hline
      exact hP next hmem
    cases block with
    | text text =>
      have htext := Divided.text
        (fun htable => hfirst fun next hmem => hnext next hmem htable) hmore
      rwa [String.ofList_toList] at htext
    | table block =>
      exact TableBlock.Legible.divided_lines hblock
        (fun hnone => hfirst fun next hmem => (hnext next hmem).1 hnone)
        (hfirst fun next hmem => (hnext next hmem).2) hmore

/-- The last line of some blocks shows in the text unless the last block is an empty text. -/
theorem getLast?_flatMap_lines {blocks : List Block} (h : ∀ block ∈ blocks, block.Legible)
    (hlast : blocks.getLast? ≠ some (.text "")) :
    (blocks.flatMap Block.lines).getLast? ≠ some [] := by
  intro hnil
  rcases List.eq_nil_or_concat blocks with rfl | ⟨init, block, rfl⟩
  · cases hnil
  · rw [List.concat_eq_append] at h hlast hnil
    have hblock := h block (by simp)
    have hlines : block.lines ≠ [] := by
      intro heq
      have hhead := Block.head?_lines hblock
      rw [heq] at hhead
      cases hhead
    rw [List.flatMap_append, List.flatMap_singleton,
      List.getLast?_append_of_ne_nil _ hlines] at hnil
    have htext := Block.eq_text_of_nil_mem_lines hblock (List.mem_of_getLast? hnil)
    exact hlast (by rw [List.getLast?_concat, htext])

/-- A legible document is read back as it is, with its cells trimmed and its tables padded. -/
theorem Legible.read_render {document : Document} (h : document.Legible) :
    read document.render = document.trimmed.padded := by
  have hlines : ∀ line ∈ document.blocks.flatMap Block.lines, IsLine line := by
    intro line hline
    obtain ⟨block, hblock, hline⟩ := List.mem_flatMap.mp hline
    exact Block.isLine_of_mem_lines (h.blocks block hblock) hline
  have hopen (hending : document.endsWithNewline = false) :=
    getLast?_flatMap_lines h.blocks (h.opened hending)
  have hclosed : document.endsWithNewline = true → document.blocks.flatMap Block.lines ≠ [] := by
    intro hending hnil
    have hhead := head?_flatMap_lines h.blocks
    rw [hnil] at hhead
    exact h.closed hending (List.head?_eq_none_iff.mp (Option.map_eq_none_iff.mp hhead.symm))
  have hrender : document.render.toList =
      join document.endsWithNewline (document.blocks.flatMap Block.lines) := String.toList_ofList
  rw [read, hrender, lines_join hlines hopen hclosed, endsWithNewline_join
    (fun line hline => (hlines line hline).1) hopen,
    (divided_lines h.blocks h.ends).readBlocks_eq]
  rfl

end Document

end TableCalc
