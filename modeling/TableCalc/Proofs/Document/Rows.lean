import TableCalc.Document.Writer
import TableCalc.Proofs.Document.Cells
import TableCalc.Proofs.Table.Cells

/-!
The lines of a table. Read back, the line of a row gives the trimmed texts of its cells, with blank
cells up to the number of columns, and the separator line gives the alignments of the columns.
-/

namespace TableCalc

open Text Document

/-- A list that is filled up shows, at each index, what stands there or the filling. -/
theorem rightpad_eq_map_range {α : Type} {l : List α} {n : Nat} (h : l.length ≤ n) (a : α) :
    l.rightpad n a = (List.range n).map fun i => l[i]?.getD a := by
  apply List.ext_getElem
  · simp only [List.rightpad, List.length_append, List.length_replicate, List.length_map,
      List.length_range]
    omega
  · intro i _ _
    simp only [List.rightpad, List.getElem_map, List.getElem_range, List.getElem_append,
      List.getElem_replicate]
    split
    · next hi => rw [List.getElem?_eq_getElem hi, Option.getD_some]
    · next hi => rw [List.getElem?_eq_none (by omega), Option.getD_none]

theorem isBlank_of_mem_blanks {n : Nat} {c : Char} (h : c ∈ blanks n) : isBlank c = true := by
  rw [List.eq_of_mem_replicate h]
  decide

/-- Alignment puts blanks around a text. -/
theorem Alignment.exists_pad (alignment : Alignment) (width : Nat) (text : List Char) :
    ∃ before after, alignment.pad width text = blanks before ++ text ++ blanks after := by
  cases alignment with
  | unmarked => exact ⟨0, _, rfl⟩
  | left => exact ⟨0, _, rfl⟩
  | right => exact ⟨_, 0, (List.append_nil _).symm⟩
  | center => exact ⟨_, _, rfl⟩

/-- The cell of a row between its two pipes. -/
def TableBlock.cell (block : TableBlock) (row : List String) (column : Nat) : List Char :=
  ' ' :: (block.alignment column).pad (block.width column) (cellChars row column) ++ [' ']

namespace TableBlock

variable (block : TableBlock)

theorem exists_cell (row : List String) (column : Nat) :
    ∃ before after, block.cell row column =
      blanks before ++ cellChars row column ++ blanks after := by
  obtain ⟨before, after, hpad⟩ :=
    (block.alignment column).exists_pad (block.width column) (cellChars row column)
  refine ⟨before + 1, after + 1, ?_⟩
  rw [cell, hpad, blanks, blanks, blanks, blanks, List.replicate_succ, List.replicate_succ']
  simp only [List.cons_append, List.append_assoc]

theorem mem_cell {row : List String} {column : Nat} {c : Char} (h : c ∈ block.cell row column) :
    c = ' ' ∨ c ∈ cellChars row column := by
  obtain ⟨before, after, hcell⟩ := block.exists_cell row column
  rw [hcell, List.mem_append, List.mem_append] at h
  rcases h with (hbefore | hmiddle) | hafter
  · exact .inl (List.eq_of_mem_replicate hbefore)
  · exact .inr hmiddle
  · exact .inl (List.eq_of_mem_replicate hafter)

theorem mem_cell_of_mem {row : List String} {column : Nat} {c : Char}
    (h : c ∈ cellChars row column) : c ∈ block.cell row column := by
  obtain ⟨before, after, hcell⟩ := block.exists_cell row column
  rw [hcell]
  simp [h]

theorem trim_cell (row : List String) (column : Nat) :
    trim (block.cell row column) = trim (cellChars row column) := by
  obtain ⟨before, after, hcell⟩ := block.exists_cell row column
  rw [hcell, trim_append (fun _ => isBlank_of_mem_blanks) (fun _ => isBlank_of_mem_blanks)]

theorem pipesEscaped_cell {row : List String} {column : Nat}
    (h : PipesEscaped (cellChars row column)) : PipesEscaped (block.cell row column) := by
  have hblanks (n : Nat) : PipesEscaped (blanks n) :=
    .of_not_mem fun hmem => absurd (List.eq_of_mem_replicate hmem) (by decide)
  obtain ⟨before, after, hcell⟩ := block.exists_cell row column
  rw [hcell]
  exact ((hblanks before).append h).append (hblanks after)

private theorem zipIdx_map_range {α : Type} (f : Nat → α) (n : Nat) :
    ((List.range n).map f).zipIdx = (List.range n).map fun i => (f i, i) := by
  apply List.ext_getElem <;> simp

/-- Texts with a pipe between them and one at the end are texts with a pipe behind each one. -/
private theorem intercalate_closed (before after : List Char) {texts : List (List Char)}
    (h : texts ≠ []) :
    before ++ List.intercalate (after ++ '|' :: before) texts ++ (after ++ ['|']) =
      (texts.map fun text => before ++ text ++ after).flatMap (· ++ ['|']) := by
  induction texts with
  | nil => exact absurd rfl h
  | cons first rest ih =>
    cases rest with
    | nil => simp
    | cons second rest =>
      rw [List.map_cons, List.flatMap_cons, ← ih (List.cons_ne_nil _ _)]
      simp [List.intercalate_cons_cons]

variable {block} (hcolumns : 0 < block.columnCount)

include hcolumns

theorem rowLine_eq (row : List String) :
    block.rowLine block.widths row =
      '|' :: ((List.range block.columnCount).map (block.cell row)).flatMap (· ++ ['|']) := by
  have hne : (List.range block.columnCount).map (fun column =>
      (block.alignment column).pad (block.width column) (cellChars row column)) ≠ [] := by
    simpa using Nat.ne_of_gt hcolumns
  have hclosed := intercalate_closed [' '] [' '] hne
  rw [List.map_map] at hclosed
  rw [rowLine, widths, zipIdx_map_range, List.map_map]
  exact congrArg ('|' :: ·) hclosed

theorem separatorLine_eq :
    block.separatorLine block.widths =
      '|' :: ((List.range block.columnCount).map fun column =>
        (block.alignment column).mark (block.width column)).flatMap (· ++ ['|']) := by
  have hne : (List.range block.columnCount).map (fun column =>
      (block.alignment column).mark (block.width column)) ≠ [] := by
    simpa using Nat.ne_of_gt hcolumns
  have hclosed := intercalate_closed [] [] hne
  rw [List.map_map] at hclosed
  rw [separatorLine, widths, zipIdx_map_range, List.map_map]
  simpa [Function.comp_def] using hclosed

/-- A row is read back as its trimmed texts, with blank cells up to the number of columns. -/
theorem splitRow_rowLine {row : List String} (hlength : row.length ≤ block.columnCount)
    (hrow : ∀ text ∈ row, PipesEscaped text.toList) :
    splitRow (block.rowLine block.widths row) =
      Grid.padRow block.columnCount (row.map trimmed) := by
  have hcell (column : Nat) : PipesEscaped (cellChars row column) := by
    rw [cellChars]
    cases htext : row[column]? with
    | none => decide
    | some text => exact hrow text (List.mem_of_getElem? htext)
  have hcells : ∀ cell ∈ (List.range block.columnCount).map (block.cell row),
      PipesEscaped cell ∧ cell.getLast? ≠ some '\\' := by
    intro cell hmem
    obtain ⟨column, _, rfl⟩ := List.mem_map.mp hmem
    refine ⟨block.pipesEscaped_cell (hcell column), ?_⟩
    rw [TableBlock.cell, List.getLast?_concat]
    decide
  rw [rowLine_eq hcolumns, splitRow_closed hcells, List.map_map,
    Grid.padRow, rightpad_eq_map_range (by simpa using hlength)]
  refine List.map_congr_left fun column _ => ?_
  rw [Function.comp_apply, trim_cell, cellChars, List.getElem?_map]
  cases row[column]? <;> rfl

end TableBlock

namespace Alignment

theorem mem_mark {alignment : Alignment} {width : Nat} {c : Char} (h : c ∈ alignment.mark width) :
    c = ':' ∨ c = '-' ∨ c = ' ' := by
  cases alignment <;>
    simp only [mark, List.cons_append, List.mem_cons, List.mem_append, List.mem_replicate,
      List.not_mem_nil, or_false] at h <;>
    grind

theorem dash_mem_mark (alignment : Alignment) {width : Nat} (h : 0 < width) :
    '-' ∈ alignment.mark width := by
  cases alignment <;> simp [mark, Nat.ne_of_gt h]

/-- A mark without the blanks at its ends is read as the alignment that it stands for. -/
theorem ofMark_mark (alignment : Alignment) (width : Nat) :
    ofMark (.ofList (trim (alignment.mark (width + 1)))) = alignment := by
  have hblank : ∀ c ∈ [' '], isBlank c = true := List.forall_mem_singleton.mpr (by decide)
  have hnil : ∀ c ∈ ([] : List Char), isBlank c = true := List.forall_mem_nil _
  have hcore {core : List Char} (h : ∀ c ∈ core, c = '-' ∨ c = ':') : IsTrimmed core := by
    have hnonblank : ∀ c ∈ core, isBlank c = false := by
      intro c hc
      rcases h c hc with rfl | rfl <;> decide
    exact ⟨fun c hc => hnonblank c (List.mem_of_mem_head? hc),
      fun c hc => hnonblank c (List.mem_reverse.mp (List.mem_of_mem_head? hc))⟩
  cases alignment with
  | unmarked =>
    have htrim : trim (mark .unmarked (width + 1)) = List.replicate (width + 1) '-' :=
      trim_eq_of_parts (hcore (by simp)) hblank hblank
    simp [htrim, ofMark, List.head?_replicate, List.getLast?_replicate]
  | left =>
    have htrim : trim (mark .left (width + 1)) = ':' :: List.replicate (width + 1) '-' :=
      trim_eq_of_parts (hcore (by simp)) hnil hblank
    simp [htrim, ofMark, List.getLast?_cons, List.getLast?_replicate]
  | right =>
    have hparts : mark .right (width + 1) =
        [' '] ++ (List.replicate (width + 1) '-' ++ [':']) ++ [] := by
      simp [mark]
    rw [hparts, trim_eq_of_parts (hcore (by simp)) hblank hnil]
    simp [ofMark, List.head?_replicate]
  | center =>
    have htrim : trim (mark .center (width + 1)) = ':' :: List.replicate (width + 1) '-' ++ [':'] :=
      trim_eq_self (hcore (by simp [mark]))
    simp [htrim, ofMark, List.getLast?_cons]

end Alignment

namespace TableBlock

variable {block : TableBlock}

theorem length_lines (block : TableBlock) :
    block.lines.length = block.table.rows.length + 1 := by
  simp only [lines, List.length_append, List.length_cons, List.length_take, List.length_drop,
    List.length_map]
  omega

/-- The lines of a table that has a header. -/
theorem lines_eq {header : List String} {body : List (List String)}
    (h : block.table.rows = header :: body) :
    block.lines = block.rowLine block.widths header :: block.separatorLine block.widths ::
      body.map (block.rowLine block.widths) := by
  rw [lines, h]
  rfl

theorem mem_lines {line : List Char} (h : line ∈ block.lines) :
    line = block.separatorLine block.widths ∨
      ∃ row ∈ block.table.rows, line = block.rowLine block.widths row := by
  rw [lines, List.mem_append, List.mem_cons] at h
  rcases h with htake | hseparator | hdrop
  · obtain ⟨row, hrow, rfl⟩ := List.mem_map.mp ((List.take_sublist 1 _).mem htake)
    exact .inr ⟨row, hrow, rfl⟩
  · exact .inl hseparator
  · obtain ⟨row, hrow, rfl⟩ := List.mem_map.mp ((List.drop_sublist 1 _).mem hdrop)
    exact .inr ⟨row, hrow, rfl⟩

theorem rowLine_mem_lines {row : List String} (h : row ∈ block.table.rows) :
    block.rowLine block.widths row ∈ block.lines := by
  have hmem := List.mem_map_of_mem (f := block.rowLine block.widths) h
  rw [← List.take_append_drop 1 (block.table.rows.map _), List.mem_append] at hmem
  rw [lines, List.mem_append, List.mem_cons]
  exact hmem.imp_right .inr

theorem width_pos (block : TableBlock) (column : Nat) : 0 < block.width column := by
  have hleast := ((Grid.foldl_max_le_iff _ minWidth (block.width column)).mp (Nat.le_refl _)).1
  exact Nat.lt_of_lt_of_le (by decide) hleast

/-- The separator line is read back as the alignments, with columns at the end unmarked. -/
theorem splitRow_separatorLine (hcolumns : 0 < block.columnCount) :
    (splitRow (block.separatorLine block.widths)).map Alignment.ofMark =
      block.alignments.rightpad block.columnCount .unmarked := by
  have hmarks : ∀ mark ∈ (List.range block.columnCount).map (fun column =>
      (block.alignment column).mark (block.width column)),
      PipesEscaped mark ∧ mark.getLast? ≠ some '\\' := by
    intro mark hmem
    obtain ⟨column, _, rfl⟩ := List.mem_map.mp hmem
    constructor
    · exact .of_not_mem fun hpipe => absurd (Alignment.mem_mark hpipe) (by decide)
    · exact fun hlast => absurd (Alignment.mem_mark (List.mem_of_getLast? hlast)) (by decide)
  have hlength : block.alignments.length ≤ block.columnCount := Nat.le_max_right _ _
  rw [separatorLine_eq hcolumns, splitRow_closed hmarks, List.map_map, List.map_map,
    rightpad_eq_map_range hlength]
  refine List.map_congr_left fun column _ => ?_
  obtain ⟨width, hwidth⟩ := Nat.exists_eq_succ_of_ne_zero (block.width_pos column).ne'
  rw [Function.comp_apply, Function.comp_apply, hwidth, Alignment.ofMark_mark]
  rfl

end TableBlock

end TableCalc
