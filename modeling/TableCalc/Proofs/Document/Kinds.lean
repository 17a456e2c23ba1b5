import TableCalc.Proofs.Document.Rows

/-!
The kinds of lines: those that could belong to a table, separators and directives. Written out
again, a row is of the kind that it was; only a header whose cells have other texts may become a
separator line, or cease to be one.
-/

namespace TableCalc

open Text

namespace Document

/-- Cells that together look like a separator line. -/
def Separating (row : List String) : Prop :=
  (∃ text ∈ row, '-' ∈ text.toList) ∧ ∀ text ∈ row, ∀ c ∈ text.toList, isSeparatorChar c = true

instance (row : List String) : Decidable (Separating row) :=
  decidable_of_iff ((∃ text ∈ row, '-' ∈ text.toList) ∧
    ∀ text ∈ row, text.toList.all isSeparatorChar = true)
    (by simp only [Separating, List.all_eq_true])

/-- A text whose blanks are spaces, tabs and line feeds. -/
def PlainText (cs : List Char) : Prop :=
  ∀ c ∈ cs, isBlank c = true → c = ' ' ∨ c = '\t' ∨ c = '\n'

instance (cs : List Char) : Decidable (PlainText cs) := List.decidableBAll _ cs

/-- A line whose blanks are spaces and tabs. -/
def PlainLine (line : List Char) : Prop := ∀ c ∈ line, isBlank c = true → c = ' ' ∨ c = '\t'

theorem isTableLine_cons (cs : List Char) : isTableLine ('|' :: cs) = true := by
  rw [isTableLine, trimStart, List.dropWhile_cons_of_neg (by decide)]
  rfl

/-- No line is both a directive and a line of a table. -/
theorem isDirective_eq_false {line : List Char} (h : isTableLine line = true) :
    isDirective line = false := by
  rw [isTableLine, beq_iff_eq] at h
  obtain ⟨rest, hrest⟩ := List.head?_eq_some_iff.mp h
  rw [isDirective, hrest]
  rfl

theorem isTableLine_eq_false {line : List Char} (h : isDirective line = true) :
    isTableLine line = false := by
  cases htable : isTableLine line with
  | false => rfl
  | true =>
    rw [isDirective_eq_false htable] at h
    cases h

theorem isSeparator_iff {line : List Char} :
    isSeparator line = true ↔
      isTableLine line = true ∧ '-' ∈ line ∧ ∀ c ∈ trim line, isSeparatorChar c = true := by
  have hdash : '-' ∈ trim line ↔ '-' ∈ line :=
    ⟨mem_of_mem_trim, fun h => mem_trim_of_mem h (by decide)⟩
  rw [isSeparator, isTableLine, ← head?_trim, Bool.and_eq_true, Bool.and_eq_true,
    List.contains_iff_mem, hdash, List.all_eq_true, and_assoc]

/-- Whether a line separates a header from a body can be told from its cells. -/
theorem isSeparator_iff_separating {line : List Char} (hplain : PlainLine line)
    (htable : isTableLine line = true) :
    isSeparator line = true ↔ Separating (splitRow line) := by
  have hblank : ∀ c ∈ line, isBlank c = true → isSeparatorChar c = true := by
    intro c hc hb
    rcases hplain c hc hb with rfl | rfl <;> decide
  rw [isSeparator_iff]
  constructor
  · rintro ⟨_, hdash, hall⟩
    refine ⟨exists_mem_splitRow hdash (by decide) (by decide), ?_⟩
    intro text htext c hc
    have hline := mem_of_mem_splitRow htext hc
    cases hb : isBlank c with
    | true => exact hblank c hline hb
    | false => exact hall c (mem_trim_of_mem hline hb)
  · rintro ⟨⟨text, htext, hdash⟩, hall⟩
    refine ⟨htable, mem_of_mem_splitRow htext hdash, ?_⟩
    intro c hc
    have hline := mem_of_mem_trim hc
    cases hb : isBlank c with
    | true => exact hblank c hline hb
    | false =>
      by_cases hpipe : c = '|'
      · rw [hpipe]
        decide
      · obtain ⟨text, htext, hctext⟩ := exists_mem_splitRow hline hpipe hb
        exact hall text htext c hctext

end Document

namespace TableBlock

open Document

variable {block : TableBlock} (hcolumns : 0 < block.columnCount)

include hcolumns

theorem isTableLine_rowLine (row : List String) :
    isTableLine (block.rowLine block.widths row) = true := by
  rw [rowLine_eq hcolumns]
  exact isTableLine_cons _

theorem mem_rowLine {row : List String} {c : Char} (h : c ∈ block.rowLine block.widths row) :
    c = '|' ∨ c = ' ' ∨ ∃ text ∈ row, c ∈ text.toList := by
  rw [rowLine_eq hcolumns, List.mem_cons, List.mem_flatMap] at h
  rcases h with hpipe | ⟨cell, hcell, hc⟩
  · exact .inl hpipe
  · obtain ⟨column, _, rfl⟩ := List.mem_map.mp hcell
    rcases List.mem_append.mp hc with hc | hpipe
    · rcases block.mem_cell hc with hspace | htext
      · exact .inr (.inl hspace)
      · rw [cellChars] at htext
        cases hrow : row[column]? with
        | none =>
          rw [hrow] at htext
          cases htext
        | some text =>
          rw [hrow] at htext
          exact .inr (.inr ⟨text, List.mem_of_getElem? hrow, htext⟩)
    · exact .inl (List.mem_singleton.mp hpipe)

theorem mem_rowLine_of_mem {row : List String} (hlength : row.length ≤ block.columnCount)
    {text : String} (htext : text ∈ row) {c : Char} (hc : c ∈ text.toList) :
    c ∈ block.rowLine block.widths row := by
  obtain ⟨column, hcolumn, rfl⟩ := List.getElem_of_mem htext
  have hmem : c ∈ cellChars row column := by
    rwa [cellChars, List.getElem?_eq_getElem hcolumn]
  have hrange := List.mem_range.mpr (Nat.lt_of_lt_of_le hcolumn hlength)
  rw [rowLine_eq hcolumns]
  refine List.mem_cons_of_mem _
    (List.mem_flatMap.mpr ⟨_, List.mem_map.mpr ⟨column, hrange, rfl⟩, ?_⟩)
  exact List.mem_append_left _ (block.mem_cell_of_mem hmem)

/-- The line of a row is a separator line just if the cells of the row look like one. -/
theorem isSeparator_rowLine {row : List String} (hlength : row.length ≤ block.columnCount) :
    isSeparator (block.rowLine block.widths row) = true ↔ Separating row := by
  have htrim : trim (block.rowLine block.widths row) = block.rowLine block.widths row := by
    rw [rowLine_eq hcolumns, trim_eq_self (isTrimmed_closed _)]
  rw [isSeparator_iff, htrim]
  constructor
  · rintro ⟨_, hdash, hall⟩
    refine ⟨?_, fun text htext c hc => hall c (mem_rowLine_of_mem hcolumns hlength htext hc)⟩
    rcases mem_rowLine hcolumns hdash with h | h | h
    · exact absurd h (by decide)
    · exact absurd h (by decide)
    · exact h
  · rintro ⟨⟨text, htext, hdash⟩, hall⟩
    refine ⟨isTableLine_rowLine hcolumns row, mem_rowLine_of_mem hcolumns hlength htext hdash, ?_⟩
    intro c hc
    rcases mem_rowLine hcolumns hc with rfl | rfl | ⟨text, htext, hctext⟩
    · decide
    · decide
    · exact hall text htext c hctext

theorem isSeparator_separatorLine :
    isSeparator (block.separatorLine block.widths) = true := by
  rw [separatorLine_eq hcolumns, isSeparator_iff, trim_eq_self (isTrimmed_closed _)]
  refine ⟨isTableLine_cons _, ?_, ?_⟩
  · have hfirst : 0 ∈ List.range block.columnCount := List.mem_range.mpr hcolumns
    refine List.mem_cons_of_mem _
      (List.mem_flatMap.mpr ⟨_, List.mem_map.mpr ⟨0, hfirst, rfl⟩, ?_⟩)
    exact List.mem_append_left _ ((block.alignment 0).dash_mem_mark (block.width_pos 0))
  · intro c hc
    rcases List.mem_cons.mp hc with rfl | hc
    · decide
    · obtain ⟨mark, hmark, hc⟩ := List.mem_flatMap.mp hc
      obtain ⟨column, _, rfl⟩ := List.mem_map.mp hmark
      rcases List.mem_append.mp hc with hc | hpipe
      · rcases Alignment.mem_mark hc with rfl | rfl | rfl <;> decide
      · rw [List.mem_singleton.mp hpipe]
        decide

end TableBlock

end TableCalc
