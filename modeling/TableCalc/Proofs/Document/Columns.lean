import Mathlib
import TableCalc.Proofs.Document.Rows

/-!
The columns of a table that is written. A line is a pipe and then, for each column, a text and a pipe
behind it. The texts of a column are equally long in the separator line and in the lines of all rows,
so the lines are equally long, and a column stands at one offset in all of them.
-/

namespace TableCalc

/-- Whether `before` and `after` are the numbers of blanks that an alignment puts around a text to
make it `width` characters long. -/
structure Alignment.Fills (alignment : Alignment) (width : ℕ) (text : List Char)
    (before after : ℕ) : Prop where
  length : before + text.length + after = width
  sides : match alignment with
    | .unmarked | .left => before = 0
    | .right => after = 0
    | .center => before = (before + after) / 2

namespace Alignment

variable {width : ℕ} {text : List Char}

theorem exists_fills (alignment : Alignment) (h : text.length ≤ width) :
    ∃ before after, alignment.Fills width text before after ∧
      alignment.pad width text = blanks before ++ text ++ blanks after := by
  obtain ⟨fill, rfl⟩ := Nat.exists_eq_add_of_le h
  have hfill : text.length + fill - text.length = fill := Nat.add_sub_cancel_left _ _
  cases alignment with
  | unmarked | left => exact ⟨0, fill, ⟨by omega, rfl⟩, by rw [pad, hfill]; rfl⟩
  | right =>
    refine ⟨fill, 0, ⟨by omega, rfl⟩, ?_⟩
    rw [pad, hfill]
    exact (List.append_nil _).symm
  | center =>
    refine ⟨fill / 2, fill - fill / 2, ⟨by omega, ?_⟩, by rw [pad, hfill]⟩
    dsimp only
    congr 1
    omega

theorem length_pad (alignment : Alignment) (h : text.length ≤ width) :
    (alignment.pad width text).length = width := by
  obtain ⟨before, after, hfills, hpad⟩ := alignment.exists_fills h
  rw [hpad, ← hfills.length, blanks, blanks, List.length_append, List.length_append,
    List.length_replicate, List.length_replicate]

theorem length_mark (alignment : Alignment) (width : ℕ) :
    (alignment.mark width).length = width + 2 := by
  cases alignment <;> simp [mark]

end Alignment

section Line

variable (texts : ℕ → List Char)

/-- A line of texts with a pipe behind each of them. -/
def closedLine (n : ℕ) : List Char := '|' :: ((List.range n).map texts).flatMap (· ++ ['|'])

theorem closedLine_succ (n : ℕ) :
    closedLine texts (n + 1) = closedLine texts n ++ (texts n ++ ['|']) := by
  simp [closedLine, List.range_succ]

theorem length_closedLine (n : ℕ) :
    (closedLine texts n).length = 1 + ∑ k ∈ Finset.range n, ((texts k).length + 1) := by
  induction n with
  | zero => rfl
  | succ n ih =>
    rw [closedLine_succ, List.length_append, ih, Finset.sum_range_succ, List.length_append,
      List.length_singleton, add_assoc]

/-- Each text stands behind the line of the texts before it, and in front of a pipe. -/
theorem exists_closedLine_eq {n k : ℕ} (hk : k < n) :
    ∃ rest, closedLine texts n = closedLine texts k ++ (texts k ++ '|' :: rest) := by
  induction n with
  | zero => exact absurd hk (Nat.not_lt_zero k)
  | succ n ih =>
    rw [closedLine_succ]
    rcases Nat.lt_succ_iff_lt_or_eq.mp hk with hlt | rfl
    · obtain ⟨rest, hrest⟩ := ih hlt
      refine ⟨rest ++ (texts n ++ ['|']), ?_⟩
      rw [hrest]
      simp only [List.append_assoc, List.cons_append]
    · exact ⟨[], rfl⟩

end Line

namespace TableBlock

variable (block : TableBlock)

/-- The width that a column needs: that of its widest cell, and at least three. Cells that a row does
not have are blank. -/
def neededWidth (column : ℕ) : ℕ :=
  max 3 ((Finset.range block.table.rows.length).sup fun row =>
    (block.table.text ⟨row, column⟩).length)

/-- The offset at which the cells of a column start. -/
def columnStart (column : ℕ) : ℕ := 2 + ∑ k ∈ Finset.range column, (block.neededWidth k + 3)

/-- The number of the line that a row is written to; the separator line is the second one. -/
def lineOfRow (row : ℕ) : ℕ := if row = 0 then 0 else row + 1

theorem text_eq_of_getElem? {row : ℕ} {cells : List String}
    (h : block.table.rows[row]? = some cells) (column : ℕ) :
    (block.table.text ⟨row, column⟩).toList = cellChars cells column := by
  rw [Table.text, cellChars, h]
  rfl

theorem width_eq (column : ℕ) : block.width column = block.neededWidth column := by
  refine eq_of_forall_ge_iff fun n => ?_
  rw [width, Grid.foldl_max_le_iff, neededWidth, max_le_iff, Finset.sup_le_iff]
  refine and_congr_right fun _ => ?_
  simp only [List.forall_mem_map, Finset.mem_range]
  constructor
  · intro h row hrow
    rw [← String.length_toList, block.text_eq_of_getElem? (List.getElem?_eq_getElem hrow)]
    exact h _ (List.getElem_mem hrow)
  · intro h cells hcells
    obtain ⟨row, hrow, rfl⟩ := List.getElem_of_mem hcells
    rw [← block.text_eq_of_getElem? (List.getElem?_eq_getElem hrow), String.length_toList]
    exact h row hrow

theorem length_cellChars_le {cells : List String} (h : cells ∈ block.table.rows) (column : ℕ) :
    (cellChars cells column).length ≤ block.width column :=
  ((Grid.foldl_max_le_iff _ minWidth _).mp (Nat.le_refl _)).2 _
    (List.mem_map.mpr ⟨cells, h, rfl⟩)

theorem length_cell {cells : List String} (h : cells ∈ block.table.rows) (column : ℕ) :
    (block.cell cells column).length = block.width column + 2 := by
  have hpad := (block.alignment column).length_pad (block.length_cellChars_le h column)
  rw [cell, List.length_append, List.length_cons, hpad]
  rfl

/-- Texts that are as wide as their columns, with a character on both sides, make lines of one
length. -/
theorem length_closedLine_of_width {texts : ℕ → List Char}
    (h : ∀ k, (texts k).length = block.width k + 2) (n : ℕ) :
    (closedLine texts n).length = 1 + ∑ k ∈ Finset.range n, (block.neededWidth k + 3) := by
  simp only [length_closedLine, h, width_eq, add_assoc, Nat.reduceAdd]

theorem getElem?_lines {row : ℕ} {cells : List String}
    (h : block.table.rows[row]? = some cells) :
    block.lines[lineOfRow row]? = some (block.rowLine block.widths cells) := by
  cases hrows : block.table.rows with
  | nil =>
    rw [hrows] at h
    cases h
  | cons header body =>
    rw [hrows] at h
    rw [lines_eq hrows]
    cases row with
    | zero =>
      rw [← Option.some.inj h]
      rfl
    | succ row =>
      rw [List.getElem?_cons_succ] at h
      simp [lineOfRow, h]

variable {block} (hcolumns : 0 < block.columnCount)

include hcolumns

theorem length_line {line : List Char} (h : line ∈ block.lines) :
    line.length = 1 + ∑ k ∈ Finset.range block.columnCount, (block.neededWidth k + 3) := by
  rcases mem_lines h with rfl | ⟨cells, hcells, rfl⟩
  · rw [separatorLine_eq hcolumns]
    exact block.length_closedLine_of_width (fun _ => Alignment.length_mark _ _) _
  · rw [rowLine_eq hcolumns]
    exact block.length_closedLine_of_width (block.length_cell hcells) _

/-- The cell of a column in the line of a row, with what stands before it and behind it. -/
theorem exists_rowLine_eq {cells : List String} (hcells : cells ∈ block.table.rows) {column : ℕ}
    (hcolumn : column < block.columnCount) :
    ∃ start rest, start.length = block.columnStart column ∧
      block.rowLine block.widths cells = start ++
        ((block.alignment column).pad (block.neededWidth column) (cellChars cells column) ++
          ' ' :: '|' :: rest) := by
  obtain ⟨rest, hrest⟩ := exists_closedLine_eq (block.cell cells) hcolumn
  refine ⟨closedLine (block.cell cells) column ++ [' '], rest, ?_, ?_⟩
  · rw [List.length_append, block.length_closedLine_of_width (block.length_cell hcells),
      columnStart, List.length_singleton]
    omega
  · rw [rowLine_eq hcolumns]
    refine hrest.trans ?_
    rw [cell, width_eq]
    simp only [List.append_assoc, List.cons_append, List.nil_append]

end TableBlock

/-- Tables are written in columns. A table with at least one column has a line for each row and the
separator line, all of them equally long: a pipe and three characters more than its width for each
column. In the line of every row, each cell starts at the offset of its column, with blanks on the
sides that the alignment asks for, and is followed by a blank and a pipe. -/
theorem TableBlock.lines_aligned {block : TableBlock} (hcolumns : 0 < block.columnCount) :
    block.lines.length = block.table.rows.length + 1 ∧
    (∀ line ∈ block.lines,
      line.length = 1 + ∑ k ∈ Finset.range block.columnCount, (block.neededWidth k + 3)) ∧
    ∀ row < block.table.rows.length, ∀ column < block.columnCount,
      ∃ start before after rest,
        (block.alignment column).Fills (block.neededWidth column)
          (block.table.text ⟨row, column⟩).toList before after ∧
        start.length = block.columnStart column ∧
        block.lines[lineOfRow row]? = some
          (start ++ (blanks before ++ (block.table.text ⟨row, column⟩).toList ++ blanks after ++
            ' ' :: '|' :: rest)) := by
  refine ⟨block.length_lines, fun line => length_line hcolumns, fun row hrow column hcolumn => ?_⟩
  have hcells := List.getElem?_eq_getElem hrow
  have hmem := List.mem_of_getElem? hcells
  have hfits := block.length_cellChars_le hmem column
  rw [width_eq] at hfits
  obtain ⟨start, rest, hstart, hline⟩ := exists_rowLine_eq hcolumns hmem hcolumn
  obtain ⟨before, after, hfills, hpad⟩ := (block.alignment column).exists_fills hfits
  rw [hpad] at hline
  rw [block.text_eq_of_getElem? hcells, block.getElem?_lines hcells, hline]
  exact ⟨start, before, after, rest, hfills, hstart, rfl⟩

/-- Rows of three lengths, a column of each alignment, the last one in the separator line alone, and a
cell that is wider in bytes than in characters. -/
theorem TableBlock.lines_aligned_ragged :
    let block : TableBlock :=
      { table := ⟨[["Größe", "b"], [], ["1", "x", "yy"]]⟩
        alignments := [.left, .right, .center, .unmarked]
        directives := [] }
    0 < block.columnCount ∧ block.lines.length = 4 ∧ (∀ line ∈ block.lines, line.length = 27) ∧
      ∃ start rest, start.length = 16 ∧
        block.lines[3]? = some (start ++ ['y', 'y', ' ', ' ', '|'] ++ rest) := by
  intro block
  have hcolumns : 0 < block.columnCount := by decide
  have hwidths : 1 + ∑ k ∈ Finset.range block.columnCount, (block.neededWidth k + 3) = 27 := by
    decide +kernel
  have hstart : block.columnStart 2 = 16 := by decide +kernel
  obtain ⟨hcount, hlength, hcells⟩ := lines_aligned hcolumns
  rw [hwidths] at hlength
  obtain ⟨start, before, after, rest, ⟨hfill, hsides⟩, hoffset, hline⟩ :=
    hcells 2 (by decide) 2 (by decide)
  have hwidth : block.neededWidth 2 = 3 := by decide +kernel
  have htext : (block.table.text ⟨2, 2⟩).toList = ['y', 'y'] := by decide +kernel
  rw [hwidth, htext, List.length_cons, List.length_singleton] at hfill
  change before = (before + after) / 2 at hsides
  obtain rfl : before = 0 := by omega
  obtain rfl : after = 1 := by omega
  refine ⟨hcolumns, hcount, hlength, start, rest, hoffset.trans hstart, hline.trans ?_⟩
  rw [htext, List.append_assoc start]
  rfl

end TableCalc
