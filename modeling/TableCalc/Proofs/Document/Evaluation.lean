import TableCalc.Engine
import TableCalc.Proofs.Document.RoundTrip
import TableCalc.Proofs.Engine.Frame
import TableCalc.Proofs.Engine.Texts

/-!
Evaluated documents, written and read again. Evaluation changes the cells of tables only. A document
stays legible as long as every text that is written stays in its cell and no header comes to look
like a separator line below a line of text that starts with a pipe. A literal may break the first
condition, since its pipes are not escaped when it is written, and a formula for a header may break
the second.
-/

namespace TableCalc

open Text Document

/-- Blocks that differ in the cells of their tables only. -/
inductive Block.SameFrame : Block → Block → Prop where
  | text (line : String) : SameFrame (.text line) (.text line)
  | table {before after : TableBlock} (extent : after.table.extent = before.table.extent)
      (alignments : after.alignments = before.alignments)
      (directives : after.directives = before.directives) :
      SameFrame (.table before) (.table after)

/-- Two blocks of which the second one is not a table whose header would be taken for the separator
line of the first one. -/
def Block.KeepsHeader (block next : Block) : Prop :=
  match block, next with
  | .text line, .table below => isTableLine line.toList = true → ¬ Separating (below.table.row 0)
  | _, _ => True

instance : DecidableRel Block.KeepsHeader
  | .text line, .table below =>
      inferInstanceAs
        (Decidable (isTableLine line.toList = true → ¬ Separating (below.table.row 0)))
  | .text _, .text _ => .isTrue trivial
  | .table _, _ => .isTrue trivial

/-- The literals of the formulas of a table have no pipes that are not escaped. -/
def TableBlock.EscapesLiterals (functions : Registry) (block : TableBlock) : Prop :=
  ∀ formulas, Formula.ofDirectives functions block.directives = .ok formulas →
    ∀ formula ∈ formulas, ∀ literal ∈ formula.expr.literals, PipesEscaped literal.toList

instance (functions : Registry) (block : TableBlock) :
    Decidable (block.EscapesLiterals functions) :=
  match h : Formula.ofDirectives functions block.directives with
  | .error _ => .isTrue fun formulas hformulas => by rw [h] at hformulas; cases hformulas
  | .ok formulas =>
      decidable_of_iff (∀ formula ∈ formulas, ∀ literal ∈ formula.expr.literals,
          PipesEscaped literal.toList)
        ⟨fun hall others hothers => by rw [h] at hothers; cases hothers; exact hall,
          fun hall => hall formulas h⟩

theorem Document.mem_tables {document : Document} {block : Block} (hblock : block ∈ document.blocks)
    {table : TableBlock} (htable : table ∈ block.table?) : table ∈ document.tables :=
  List.mem_filterMap.mpr ⟨block, hblock, htable⟩

/-- A table of the same size has the same number of columns to be written. -/
theorem TableBlock.columnCount_of_extent {block : TableBlock} {table : Table}
    (h : table.extent = block.table.extent) :
    columnCount { block with table := table } = block.columnCount := by
  rw [columnCount, columnCount, h]

namespace Block.SameFrame

theorem legible_table {before after : TableBlock} (h : SameFrame (.table before) (.table after))
    (hbefore : before.Legible) (hconfined : ConfinedRows after.table.rows) : after.Legible := by
  cases h with
  | table extent alignments directives =>
    refine ⟨?_, ?_, hconfined, ?_⟩
    · intro hnil
      have hrows : after.table.rows.length = before.table.rows.length := congrArg Extent.rows extent
      rw [hnil] at hrows
      exact hbefore.header (List.length_eq_zero_iff.mp hrows.symm)
    · rw [TableBlock.columnCount, extent, alignments]
      exact hbefore.columns
    · rw [directives]
      exact hbefore.directives

variable {block block' next next' : Block}

theorem endsBefore (hblock : SameFrame block block') (hnext : SameFrame next next')
    (hlegible : next.Legible) (hlegible' : next'.Legible) (hkeeps : block'.KeepsHeader next')
    (h : block.EndsBefore next) : block'.EndsBefore next' := by
  cases hnext with
  | text line =>
    cases hblock with
    | text _ => exact h
    | table _ _ directives => exact ⟨fun hnone => h.1 (directives ▸ hnone), h.2⟩
  | @table header header' _ _ _ =>
    have hcolumns : 0 < header'.columnCount := TableBlock.Legible.columns hlegible'
    have htable' := TableBlock.isTableLine_rowLine hcolumns (header'.table.row 0)
    cases hblock with
    | text line =>
      intro htable
      have hlength : (header'.table.row 0).length ≤ header'.columnCount :=
        Nat.le_trans (header'.table.length_row_le 0) (Nat.le_max_left _ _)
      rw [← Bool.not_eq_true]
      exact mt (TableBlock.isSeparator_rowLine hcolumns hlength).mp (hkeeps htable)
    | table _ _ directives =>
      -- a table right behind another one was already there, so the first one has directives
      refine ⟨fun hnone => ?_, isDirective_eq_false htable'⟩
      have htable := TableBlock.isTableLine_rowLine
        (TableBlock.Legible.columns hlegible) (header.table.row 0)
      exact absurd htable (Bool.eq_false_iff.mp (h.1 (directives ▸ hnone)))

end Block.SameFrame

namespace Document

theorem isChain_endsBefore {blocks blocks' : List Block}
    (hframe : List.Forall₂ Block.SameFrame blocks blocks')
    (hlegible : ∀ block ∈ blocks, block.Legible)
    (hlegible' : ∀ block ∈ blocks', block.Legible) (hkeeps : blocks'.IsChain Block.KeepsHeader)
    (h : blocks.IsChain Block.EndsBefore) : blocks'.IsChain Block.EndsBefore := by
  induction hframe with
  | nil => exact .nil
  | @cons block block' rest rest' hblock hrest ih =>
    rw [List.forall_mem_cons] at hlegible hlegible'
    rw [List.isChain_cons] at hkeeps h ⊢
    refine ⟨fun next' hnext' => ?_, ih hlegible.2 hlegible'.2 hkeeps.2 h.2⟩
    cases hrest with
    | nil => cases hnext'
    | @cons next _ _ _ hnext _ =>
      cases hnext'
      exact hblock.endsBefore hnext (hlegible.2 next List.mem_cons_self)
        (hlegible'.2 _ List.mem_cons_self) (hkeeps.1 _ rfl) (h.1 next rfl)

theorem Legible.of_sameFrame {before after : Document} (h : before.Legible)
    (hframe : List.Forall₂ Block.SameFrame before.blocks after.blocks)
    (hending : after.endsWithNewline = before.endsWithNewline)
    (hblocks : ∀ block ∈ after.blocks, block.Legible)
    (hkeeps : after.blocks.IsChain Block.KeepsHeader) : after.Legible where
  blocks := hblocks
  ends := isChain_endsBefore hframe h.blocks hblocks hkeeps h.ends
  opened hopen hlast := by
    have hreverse := List.forall₂_reverse_iff.mpr hframe
    rw [← List.head?_reverse] at hlast
    obtain ⟨rest, hrest⟩ := List.head?_eq_some_iff.mp hlast
    rw [hrest, List.forall₂_cons_right_iff] at hreverse
    obtain ⟨_, _, hblock, _, hbefore⟩ := hreverse
    cases hblock
    refine h.opened (hending ▸ hopen) ?_
    rw [← List.head?_reverse, hbefore]
    rfl
  closed hclosed hnil := by
    rw [hnil, List.forall₂_nil_right_iff] at hframe
    exact h.closed (hending ▸ hclosed) hframe

end Document

namespace Engine

variable {engine : Engine}

/-- A table without directives is evaluated like any other: no formula is applied to it. -/
theorem evaluateBlock_table (engine : Engine) (block : TableBlock) :
    engine.evaluateBlock (.table block) =
      return .table { block with table := ← engine.evaluate block.directives block.table } := by
  rw [evaluateBlock]
  split
  · next hnone =>
    obtain ⟨table, alignments, directives⟩ := block
    rw [List.isEmpty_iff] at hnone
    subst hnone
    rfl
  · rfl

theorem evaluateBlock_sameFrame {block after : Block} (h : engine.evaluateBlock block = .ok after) :
    block.SameFrame after := by
  cases block with
  | text line =>
    cases h
    exact .text line
  | table block =>
    rw [evaluateBlock] at h
    split at h
    · cases h
      exact .table rfl rfl rfl
    · obtain ⟨table, htable, h⟩ := bind_eq_ok_iff.mp h
      cases h
      obtain ⟨formulas, _, happly⟩ := bind_eq_ok_iff.mp htable
      exact .table (apply_written happly).2.extent rfl rfl

/-- The literals of a legible table stay in their cell if their pipes are escaped. -/
theorem confined_of_ofDirectives {block : TableBlock} (hlegible : block.Legible)
    (hliterals : block.EscapesLiterals engine.functions) {formulas : List Formula}
    (h : Formula.ofDirectives engine.functions block.directives = .ok formulas) :
    ∀ formula ∈ formulas, formula.Confined := by
  have hdirectives : ∀ directive ∈ block.directives, OnOneLine directive :=
    fun directive hmem => (hlegible.directives directive hmem).2.1
  intro formula hformula literal hliteral
  exact ⟨hliterals formulas h formula hformula literal hliteral,
    Formula.onOneLine_of_ofDirectives hdirectives h formula hformula literal hliteral⟩

theorem evaluateBlock_legible (hfunctions : engine.functions.Keeps Confined) {block after : Block}
    (hlegible : block.Legible)
    (hliterals : ∀ table ∈ block.table?, table.EscapesLiterals engine.functions)
    (h : engine.evaluateBlock block = .ok after) : after.Legible := by
  have hframe := evaluateBlock_sameFrame h
  cases block with
  | text line =>
    cases h
    exact hlegible
  | table block =>
    rw [evaluateBlock] at h
    split at h
    · cases h
      exact hlegible
    · obtain ⟨table, htable, h⟩ := bind_eq_ok_iff.mp h
      cases h
      obtain ⟨formulas, hformulas, happly⟩ := bind_eq_ok_iff.mp htable
      have hconfined := confined_of_ofDirectives hlegible (hliterals block rfl) hformulas
      exact hframe.legible_table hlegible
        (apply_cells Text.inherited_confined hfunctions hconfined
          (TableBlock.Legible.cells hlegible) happly)

/-- An evaluated document is written so that reading it gives the cells that it has, trimmed and
padded, if no literal has a pipe that is not escaped, the functions introduce none, and no header
comes to look like a separator line below a line of text that starts with a pipe. -/
theorem read_evaluateMarkdown {markdown : String} {evaluated : Document}
    (hplain : PlainText markdown.toList)
    (hfunctions : engine.functions.Keeps Confined)
    (hliterals : ∀ table ∈ (read markdown).tables, table.EscapesLiterals engine.functions)
    (h : engine.evaluateDocument (read markdown) = .ok evaluated)
    (hkeeps : evaluated.blocks.IsChain Block.KeepsHeader) :
    engine.evaluateMarkdown markdown = .ok evaluated.render ∧
      read evaluated.render = evaluated.trimmed.padded := by
  have hwritten : engine.evaluateMarkdown markdown = .ok evaluated.render := by
    rw [evaluateMarkdown, h]
    rfl
  obtain ⟨blocks, hblocks, heq⟩ := bind_eq_ok_iff.mp h
  cases heq
  have hlegible := legible_read hplain
  have hframe := (mapM_eq_ok_iff.mp hblocks).imp fun _ _ => evaluateBlock_sameFrame
  have hafter : ∀ block ∈ blocks, block.Legible := by
    intro after hmem
    obtain ⟨block, hblock, heval⟩ := exists_of_mem_mapM hblocks hmem
    exact evaluateBlock_legible hfunctions (hlegible.blocks block hblock)
      (fun table htable => hliterals table (List.mem_filterMap.mpr ⟨block, hblock, htable⟩)) heval
  have hevaluated : ({ read markdown with blocks := blocks } : Document).Legible :=
    hlegible.of_sameFrame hframe rfl hafter hkeeps
  exact ⟨hwritten, hevaluated.read_render⟩

/-- A literal with an escaped pipe, a list in a header below a line that starts with a pipe, and a
short row that is filled. -/
theorem read_evaluateMarkdown_escaped :
    let directive := "<!-- TBLFM: @2$2=\"x\\|y\"::@3$2=sum(@2$1..@3$1);%.1f::@1$2=@2$1..@3$1 -->"
    let markdown := "| -\n| a | b |\n| - | -: |\n| 1 | 2 |\n| 3 |\n" ++ directive ++ "\n"
    let evaluated : Document :=
      { blocks :=
          [.text "| -", .table
            { table := ⟨[["a", "[1, 3]"], ["1", "x\\|y"], ["3", "4.0"]]⟩
              alignments := [.unmarked, .right]
              directives := [directive] }]
        endsWithNewline := true }
    PlainText markdown.toList ∧
      (∀ table ∈ (read markdown).tables, table.EscapesLiterals standard.functions) ∧
      standard.evaluateDocument (read markdown) = .ok evaluated ∧
      evaluated.blocks.IsChain Block.KeepsHeader ∧
      standard.evaluateMarkdown markdown = .ok evaluated.render ∧
      read evaluated.render = evaluated.trimmed.padded := by
  intro directive markdown evaluated
  have hplain : PlainText markdown.toList := by decide +kernel
  have hliterals : ∀ table ∈ (read markdown).tables, table.EscapesLiterals standard.functions := by
    decide +kernel
  have h : standard.evaluateDocument (read markdown) = .ok evaluated := by decide +kernel
  have hkeeps : evaluated.blocks.IsChain Block.KeepsHeader := by decide +kernel
  exact ⟨hplain, hliterals, h, hkeeps,
    read_evaluateMarkdown hplain (Registry.keeps_standard Text.inherited_confined) hliterals h hkeeps⟩

/-- A pipe that is not escaped in a literal divides the cell that the literal is written into. -/
theorem read_evaluateMarkdown_pipe :
    let markdown := "| A |\n| - |\n| 1 |\n<!-- TBLFM: @2$1=\"x|y\" -->"
    let written := "| A   |\n| --- |\n| x|y |\n<!-- TBLFM: @2$1=\"x|y\" -->"
    PlainText markdown.toList ∧
      standard.evaluateMarkdown markdown = .ok written ∧
      (standard.evaluateDocument (read markdown)).toOption.map
        (·.tables.map (·.table.rows)) = some [[["A"], ["x|y"]]] ∧
      (read written).tables.map (·.table.rows) = [[["A"], ["x", "y"]]] := by
  decide +kernel

/-- A header that has come to look like a separator line makes the text above it a header. -/
example :
    let markdown := "| x\n| A |\n| - |\n| 1 |\n<!-- TBLFM: @1$1=\"-\" -->"
    let written := "| x\n| -   |\n| --- |\n| 1   |\n<!-- TBLFM: @1$1=\"-\" -->"
    standard.evaluateMarkdown markdown = .ok written ∧
      (read markdown).tables.map (·.table.rows) = [[["A"], ["1"]]] ∧
      (read written).tables.map (·.table.rows) = [[["x"], ["---"], ["1"]]] := by
  decide +kernel

end Engine

end TableCalc
