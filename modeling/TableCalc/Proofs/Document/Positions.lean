import TableCalc.Proofs.Document.Evaluation
import TableCalc.Proofs.Document.Sections
import TableCalc.Proofs.Text.Endings

/-!
Where lines stand before and after a document is evaluated. A table is written on as many lines as it
was read from, however its cells change, and it is written in the same place. So every line outside of
tables is found again under its number.
-/

namespace TableCalc

open Text Document

/-- For each line of a block, whether it is the header, the separator or in the body of a table. -/
def Block.tableMask : Block → List Bool
  | .text _ => [false]
  | .table block =>
      .replicate (block.table.rows.length + 1) true ++ .replicate block.directives.length false

/-- For each line of a document, whether it is the header, the separator or in the body of a
table. -/
def Document.tableMask (document : Document) : List Bool :=
  document.blocks.flatMap Block.tableMask

namespace Document

/-- Lines before and after a change of tables. The mask tells the lines of tables, which may change;
all others stay what and where they are. -/
inductive InPlaceOf : List Bool → List (List Char) → List (List Char) → Prop where
  | nil : InPlaceOf [] [] []
  | kept {mask : List Bool} {before after : List (List Char)} (line : List Char)
      (more : InPlaceOf mask before after) :
      InPlaceOf (false :: mask) (line :: before) (line :: after)
  | table {mask : List Bool} {before after : List (List Char)} {line written : List Char}
      (was : isTableLine line = true) (is : isTableLine written = true)
      (more : InPlaceOf mask before after) :
      InPlaceOf (true :: mask) (line :: before) (written :: after)

namespace InPlaceOf

variable {mask more : List Bool} {before after before' after' : List (List Char)}

theorem append (h : InPlaceOf mask before after) (h' : InPlaceOf more before' after') :
    InPlaceOf (mask ++ more) (before ++ before') (after ++ after') := by
  induction h with
  | nil => exact h'
  | kept line _ ih => exact .kept line ih
  | table was is _ ih => exact .table was is ih

theorem refl (ls : List (List Char)) : InPlaceOf (.replicate ls.length false) ls ls := by
  induction ls with
  | nil => exact .nil
  | cons line rest ih => exact .kept line ih

theorem tables (hlength : before.length = after.length)
    (hbefore : ∀ line ∈ before, isTableLine line = true)
    (hafter : ∀ line ∈ after, isTableLine line = true) :
    InPlaceOf (.replicate before.length true) before after := by
  induction before generalizing after with
  | nil =>
    rw [List.length_eq_zero_iff.mp hlength.symm]
    exact .nil
  | cons line rest ih =>
    cases after with
    | nil => simp at hlength
    | cons written others =>
      rw [List.forall_mem_cons] at hbefore hafter
      exact .table hbefore.1 hafter.1 (ih (by simpa using hlength) hbefore.2 hafter.2)

theorem length_mask (h : InPlaceOf mask before after) : mask.length = before.length := by
  induction h with
  | nil => simp
  | kept _ _ ih => simp [ih]
  | table _ _ _ ih => simp [ih]

theorem length_eq (h : InPlaceOf mask before after) : after.length = before.length := by
  induction h with
  | nil => simp
  | kept _ _ ih => simp [ih]
  | table _ _ _ ih => simp [ih]

theorem ne_nil (h : InPlaceOf mask before after) (hbefore : before ≠ []) : after ≠ [] := by
  rw [← List.length_pos_iff, h.length_eq]
  exact List.length_pos_iff.mpr hbefore

theorem getElem?_eq (h : InPlaceOf mask before after) {i : Nat} (hi : mask[i]? = some false) :
    after[i]? = before[i]? := by
  induction h generalizing i with
  | nil => simp at hi
  | kept line _ ih =>
    cases i with
    | zero => simp
    | succ i => simpa using ih (by simpa using hi)
  | table _ _ _ ih =>
    cases i with
    | zero => simp at hi
    | succ i => simpa using ih (by simpa using hi)

theorem exists_tableLine (h : InPlaceOf mask before after) {i : Nat} (hi : mask[i]? = some true) :
    ∃ line written, before[i]? = some line ∧ after[i]? = some written ∧
      isTableLine line = true ∧ isTableLine written = true := by
  induction h generalizing i with
  | nil => simp at hi
  | kept line _ ih =>
    cases i with
    | zero => simp at hi
    | succ i => simpa using ih (by simpa using hi)
  | @table _ _ _ line written was is _ ih =>
    cases i with
    | zero => exact ⟨line, written, by simp, by simp, was, is⟩
    | succ i => simpa using ih (by simpa using hi)

/-- The last line shows after the change if it did before it: lines of tables are not empty. -/
theorem getLast?_ne (h : InPlaceOf mask before after) (hbefore : before.getLast? ≠ some []) :
    after.getLast? ≠ some [] := by
  induction h with
  | nil => simp
  | @kept _ before after line more ih =>
    cases more with
    | nil => exact hbefore
    | kept | table => simpa using ih (by simpa using hbefore)
  | @table _ before after line written _ is more ih =>
    cases more with
    | nil =>
      rw [List.getLast?_singleton]
      rintro ⟨⟩
      simp [isTableLine, trimStart] at is
    | kept | table => simpa using ih (by simpa using hbefore)

end InPlaceOf

end Document

namespace Block

/-- Whether a block is text or a table with columns. -/
def HasColumns : Block → Prop
  | .text _ => True
  | .table block => 0 < block.columnCount

/-- Whether no text, cell or directive of a block holds a line feed. -/
def OnOneLine : Block → Prop
  | .text line => Document.OnOneLine line
  | .table block =>
      AllCells Document.OnOneLine block.table.rows ∧
        ∀ directive ∈ block.directives, Document.OnOneLine directive

/-- The lines that a block is written on hold no line feeds just if the block holds none. -/
theorem forall_mem_lines_iff {block : Block} (h : block.HasColumns) :
    (∀ line ∈ block.lines, '\n' ∉ line) ↔ block.OnOneLine := by
  cases block with
  | text line => exact List.forall_mem_singleton
  | table block =>
    have hcells : (∀ line ∈ block.lines, '\n' ∉ line) ↔
        AllCells Document.OnOneLine block.table.rows := by
      constructor
      · intro hlines row hrow text htext hfeed
        exact hlines _ (TableBlock.rowLine_mem_lines hrow)
          (TableBlock.mem_rowLine_of_mem h (TableBlock.length_le_columnCount hrow) htext hfeed)
      · intro hcells line hline
        exact (TableBlock.isLine_of_mem_lines h hcells hline).1
    rw [lines, List.forall_mem_append, hcells, List.forall_mem_map]
    rfl

end Block

namespace Document.Divided

variable {ls : List (List Char)} {blocks : List Block}

theorem hasColumns (h : Divided ls blocks) : ∀ block ∈ blocks, block.HasColumns := by
  induction h with
  | nil => exact List.forall_mem_nil _
  | text _ _ ih => exact List.forall_mem_cons.mpr ⟨trivial, ih⟩
  | table _ hseparator _ _ _ _ _ ih =>
    exact List.forall_mem_cons.mpr ⟨columnCount_readTable_pos hseparator, ih⟩

theorem onOneLine (h : Divided ls blocks) (hfeed : ∀ line ∈ ls, '\n' ∉ line) :
    ∀ block ∈ blocks, block.OnOneLine := by
  induction h with
  | nil => exact List.forall_mem_nil _
  | text _ _ ih =>
    rw [List.forall_mem_cons] at hfeed
    refine List.forall_mem_cons.mpr ⟨?_, ih hfeed.2⟩
    simpa [Block.OnOneLine, Document.OnOneLine] using hfeed.1
  | table _ _ _ _ _ _ _ ih =>
    simp only [List.forall_mem_cons, List.forall_mem_append] at hfeed
    obtain ⟨hheader, -, hbody, hdirectives, hrest⟩ := hfeed
    refine List.forall_mem_cons.mpr ⟨⟨?_, ?_⟩, ih hrest⟩
    · exact onOneLine_readTable (List.forall_mem_cons.mpr ⟨hheader, hbody⟩)
    · intro directive hdirective
      obtain ⟨line, hline, rfl⟩ := List.mem_map.mp hdirective
      simpa [Document.OnOneLine] using hdirectives line hline

end Document.Divided

namespace Engine

section Blocks

variable {engine : Engine} {block after : Block}

theorem evaluateBlock_hasColumns (h : engine.evaluateBlock block = .ok after)
    (hblock : block.HasColumns) : after.HasColumns := by
  cases block with
  | text line =>
    cases h
    trivial
  | table block =>
    rw [evaluateBlock_table] at h
    obtain ⟨table, htable, h⟩ := bind_eq_ok_iff.mp h
    cases h
    rw [Block.HasColumns, TableBlock.columnCount_of_extent (evaluate_extent htable)]
    exact hblock

/-- Functions that keep cells on one line keep blocks on one line. -/
theorem evaluateBlock_onOneLine (hfunctions : engine.functions.Keeps OnOneLine)
    (h : engine.evaluateBlock block = .ok after) (hblock : block.OnOneLine) : after.OnOneLine := by
  cases block with
  | text line =>
    cases h
    exact hblock
  | table block =>
    obtain ⟨hcells, hdirectives⟩ := hblock
    rw [evaluateBlock_table] at h
    obtain ⟨table, htable, h⟩ := bind_eq_ok_iff.mp h
    cases h
    obtain ⟨formulas, hformulas, happly⟩ := bind_eq_ok_iff.mp htable
    exact ⟨apply_cells inherited_onOneLine hfunctions
      (Formula.onOneLine_of_ofDirectives hdirectives hformulas) hcells happly, hdirectives⟩

/-- The lines that a table is read from make room for those that it is written on. -/
theorem inPlaceOf_table {header separator : List Char} {body directives : List (List Char)}
    (hheader : isTableLine header = true) (hseparator : isSeparator separator = true)
    (hbody : ∀ line ∈ body, isTableLine line = true)
    (h : engine.evaluateBlock (.table (readTable header separator body directives)) = .ok after) :
    InPlaceOf (Block.tableMask (.table (readTable header separator body directives)))
      (header :: separator :: body ++ directives) after.lines := by
  have hcolumns := evaluateBlock_hasColumns h (columnCount_readTable_pos hseparator)
  rw [evaluateBlock_table] at h
  obtain ⟨table, htable, h⟩ := bind_eq_ok_iff.mp h
  cases h
  have hrows : table.rows.length = body.length + 1 := by
    have hextent := congrArg Extent.rows (evaluate_extent htable)
    simpa [Table.extent, readTable] using hextent
  -- Both parts are lines of one table, of which only the number counts.
  have hread : ∀ line ∈ header :: separator :: body, isTableLine line = true := by
    simp only [List.forall_mem_cons]
    exact ⟨hheader, (isSeparator_iff.mp hseparator).1, hbody⟩
  have hwritten : ∀ line ∈ TableBlock.lines
      { readTable header separator body directives with table := table },
      isTableLine line = true := fun _ => TableBlock.isTableLine_of_mem_lines hcolumns
  have htables := InPlaceOf.tables (by simp [TableBlock.length_lines, hrows]) hread hwritten
  simpa [Block.tableMask, Block.lines, readTable, Function.comp_def] using
    htables.append (.refl directives)

/-- The lines that evaluated blocks are written on hold no line feeds just if the blocks hold none. -/
theorem forall_mem_lines_iff {blocks evaluated : List Block}
    (hcolumns : ∀ block ∈ blocks, block.HasColumns)
    (h : blocks.mapM engine.evaluateBlock = .ok evaluated) :
    (∀ line ∈ evaluated.flatMap Block.lines, '\n' ∉ line) ↔ ∀ block ∈ evaluated, block.OnOneLine := by
  rw [List.forall_mem_flatMap]
  refine forall₂_congr fun after hafter => Block.forall_mem_lines_iff ?_
  obtain ⟨block, hblock, heval⟩ := exists_of_mem_mapM h hafter
  exact evaluateBlock_hasColumns heval (hcolumns block hblock)

/-- Evaluated blocks are written where the blocks were read. -/
theorem inPlaceOf_lines {ls : List (List Char)} {blocks evaluated : List Block}
    (hdivided : Divided ls blocks) (h : blocks.mapM engine.evaluateBlock = .ok evaluated) :
    InPlaceOf (blocks.flatMap Block.tableMask) ls (evaluated.flatMap Block.lines) := by
  rw [mapM_eq_ok_iff] at h
  induction hdivided generalizing evaluated with
  | nil =>
    rw [List.forall₂_nil_left_iff.mp h]
    exact .nil
  | @text line rest blocks _ _ ih =>
    obtain ⟨_, others, hfirst, hrest, rfl⟩ := List.forall₂_cons_left_iff.mp h
    cases hfirst
    simpa [Block.tableMask, Block.lines] using InPlaceOf.kept line (ih hrest)
  | @table header separator body directives rest blocks hheader hseparator hbody _ _ _ _ ih =>
    obtain ⟨after, others, hfirst, hrest, rfl⟩ := List.forall₂_cons_left_iff.mp h
    -- The block has its own part of the lines, and so has what it is written on.
    have hsplit : header :: separator :: (body ++ (directives ++ rest)) =
        (header :: separator :: body ++ directives) ++ rest := by simp
    rw [hsplit, List.flatMap_cons, List.flatMap_cons]
    exact (inPlaceOf_table hheader hseparator hbody hfirst).append (ih hrest)

end Blocks

/-- What stays of the lines of a text where only its tables are written anew. -/
structure LinesKept (markdown written : String) : Prop where
  mask : (read markdown).tableMask.length = (lines markdown.toList).length
  count : (feedLines written.toList).length = (lines markdown.toList).length
  ending : Text.endsWithNewline written.toList = Text.endsWithNewline markdown.toList
  /-- A line that is not the header, the separator or in the body of a table is found unchanged under
  its number. -/
  outside : ∀ i : Nat, (read markdown).tableMask[i]? = some false →
    (feedLines written.toList)[i]? = (lines markdown.toList)[i]?
  /-- Where a table stood, a table stands. -/
  tables : ∀ i : Nat, (read markdown).tableMask[i]? = some true →
    ∃ line line' : List Char, (lines markdown.toList)[i]? = some line ∧
      (feedLines written.toList)[i]? = some line' ∧
      isTableLine line = true ∧ isTableLine line' = true

theorem linesKept_iff {engine : Engine} {markdown : String} {evaluated : Document}
    (h : engine.evaluateDocument (read markdown) = .ok evaluated) :
    LinesKept markdown evaluated.render ↔ ∀ block ∈ evaluated.blocks, block.OnOneLine := by
  obtain ⟨blocks, hblocks, heq⟩ := bind_eq_ok_iff.mp h
  cases heq
  have hdivided : Divided (lines markdown.toList) (read markdown).blocks := divided_readBlocks _
  have hplace := inPlaceOf_lines hdivided hblocks
  have hrender : (render { read markdown with blocks := blocks }).toList =
      join (Text.endsWithNewline markdown.toList) (blocks.flatMap Block.lines) :=
    String.toList_ofList
  have hopen (hending : Text.endsWithNewline markdown.toList = false) :
      (blocks.flatMap Block.lines).getLast? ≠ some [] :=
    hplace.getLast?_ne (getLast?_lines hending)
  have hclosed (hending : Text.endsWithNewline markdown.toList = true) :
      blocks.flatMap Block.lines ≠ [] :=
    hplace.ne_nil (lines_ne_nil_of_ends hending)
  rw [← forall_mem_lines_iff hdivided.hasColumns hblocks]
  constructor
  · intro hkept
    have hcount := hkept.count
    have hending := hkept.ending
    rw [hrender] at hcount hending
    exact not_mem_feed_of_length (hcount.trans hplace.length_eq.symm) hending
  · intro hfeed
    have hwritten : feedLines (render { read markdown with blocks := blocks }).toList =
        blocks.flatMap Block.lines := by
      rw [hrender, feedLines_join hfeed hopen hclosed]
    exact {
      mask := hplace.length_mask
      count := (congrArg List.length hwritten).trans hplace.length_eq
      ending := by rw [hrender, endsWithNewline_join hfeed hopen]
      outside := fun i hi => by rw [hwritten, hplace.getElem?_eq hi]
      tables := fun i hi => by
        rw [hwritten]
        exact hplace.exists_tableLine hi }

theorem evaluateDocument_onOneLine {engine : Engine} (hfunctions : engine.functions.Keeps OnOneLine)
    {markdown : String} {evaluated : Document}
    (h : engine.evaluateDocument (read markdown) = .ok evaluated) :
    ∀ block ∈ evaluated.blocks, block.OnOneLine := by
  obtain ⟨blocks, hblocks, heq⟩ := bind_eq_ok_iff.mp h
  cases heq
  have hfeed : ∀ line ∈ lines markdown.toList, '\n' ∉ line :=
    fun line hline hmem => (mem_of_mem_lines hline hmem).2 rfl
  intro after hafter
  obtain ⟨block, hblock, heval⟩ := exists_of_mem_mapM hblocks hafter
  exact evaluateBlock_onOneLine hfunctions heval
    (Divided.onOneLine (divided_readBlocks _) hfeed block hblock)

/-- A function with a line feed in its value adds a line. -/
example :
    let split : Function :=
      { info := ⟨"split", "", "", [], "", [], "", []⟩, call := fun _ _ => .ok (.ofRows [["a\nb"]]) }
    evaluateMarkdown (.ofFunctions (.ofList [split]))
        "| A |\n| - |\n| 1 |\n<!-- TBLFM: @2$1=split(1) -->" =
      .ok "| A   |\n| --- |\n| a\nb |\n<!-- TBLFM: @2$1=split(1) -->" := by
  decide +kernel

end Engine

end TableCalc
