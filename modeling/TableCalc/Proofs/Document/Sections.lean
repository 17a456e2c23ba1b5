import TableCalc.Engine
import TableCalc.Proofs.Document.Division
import TableCalc.Proofs.Outcome
import TableCalc.Proofs.Text.Lines

/-!
Documents made of sections. An empty line ends whatever stands above it, a table that is still
without its body or that waits for more directives as well as a line of text. So what stands above
it and what stands below it are read, evaluated and written apart.
-/

namespace TableCalc

open Text Document

theorem Block.lines_ne_nil (block : Block) : block.lines ≠ [] := by
  cases block with
  | text line => exact List.cons_ne_nil _ _
  | table block => simp [Block.lines, TableBlock.lines]

namespace Document

theorem flatMap_lines_ne_nil {blocks : List Block} (h : blocks ≠ []) :
    blocks.flatMap Block.lines ≠ [] := by
  obtain ⟨block, rest, rfl⟩ := List.exists_cons_of_ne_nil h
  rw [List.flatMap_cons]
  exact List.append_ne_nil_of_left_ne_nil block.lines_ne_nil _

theorem render_append {blocks others : List Block} (hblocks : blocks ≠ []) (hothers : others ≠ [])
    (ending : Bool) :
    render ⟨blocks ++ others, ending⟩ = render ⟨blocks, true⟩ ++ render ⟨others, ending⟩ := by
  have hjoin := join_append (flatMap_lines_ne_nil hblocks) (flatMap_lines_ne_nil hothers) ending
  rw [← List.flatMap_append] at hjoin
  rw [render, render, render, ← String.ofList_append]
  exact congrArg String.ofList hjoin

theorem render_newline (blocks : List Block) :
    render ⟨blocks, true⟩ = render ⟨blocks, false⟩ ++ "\n" := by
  rw [render, render, String.ofList_append, String.ofList_append, String.append_assoc]
  rfl

theorem readBlocks_blank (rest : List (List Char)) :
    readBlocks ([] :: rest) = .text "" :: readBlocks rest :=
  readBlocks_text fun htable => absurd htable (by decide)

/-- What stands above an empty line and what stands below it are divided apart. -/
theorem readBlocks_append_blank (ls more : List (List Char)) :
    readBlocks (ls ++ [[]] ++ more) = readBlocks (ls ++ [[]]) ++ readBlocks more := by
  have habove (rest : List (List Char)) :
      readBlocks (ls ++ [] :: rest) = readBlocks ls ++ .text "" :: readBlocks rest := by
    rw [← readBlocks_blank]
    refine readBlocks_append ?_
    rintro _ ⟨⟩
    decide
  rw [List.append_assoc, List.singleton_append, habove, habove, readBlocks, List.append_assoc,
    List.singleton_append]

end Document

namespace Engine

variable {engine : Engine}

/-- The blocks of a document are evaluated one by one, and what they have become is written. -/
theorem evaluateMarkdown_eq (engine : Engine) (markdown : String) :
    engine.evaluateMarkdown markdown = do
      let blocks ← (readBlocks (lines markdown.toList)).mapM engine.evaluateBlock
      return render ⟨blocks, Text.endsWithNewline markdown.toList⟩ := by
  rw [evaluateMarkdown, evaluateDocument, Document.read]
  cases (readBlocks (lines markdown.toList)).mapM engine.evaluateBlock with
  | error e => rfl
  | ok blocks => rfl

theorem evaluateMarkdown_empty (engine : Engine) : engine.evaluateMarkdown "" = .ok "" := by
  have hread : readBlocks (lines "".toList) = [] := readBlocks.eq_1
  rw [evaluateMarkdown_eq, hread]
  rfl

theorem evaluateMarkdown_newline (engine : Engine) :
    engine.evaluateMarkdown "\n" = .ok "\n" := by
  have hread : readBlocks (lines "\n".toList) = [.text ""] := readBlocks.eq_2 []
  rw [evaluateMarkdown_eq, hread]
  rfl

theorem mapM_evaluateBlock_ne_nil {ls : List (List Char)} {blocks : List Block} (hls : ls ≠ [])
    (h : (readBlocks ls).mapM engine.evaluateBlock = .ok blocks) : blocks ≠ [] := by
  rintro rfl
  have hread := mapM_eq_ok_iff.mp h
  rw [List.forall₂_nil_right_iff] at hread
  exact hls ((divided_readBlocks ls).eq_nil_iff.mpr hread)

/-- Two texts, the first of them ended by a line feed, are evaluated one after the other if their
lines divide apart. -/
theorem evaluateMarkdown_append {a b : String} (ha : Text.endsWithNewline a.toList = true)
    (hdivided : readBlocks (lines a.toList ++ lines b.toList) =
      readBlocks (lines a.toList) ++ readBlocks (lines b.toList)) :
    engine.evaluateMarkdown (a ++ b) = do
      let x ← engine.evaluateMarkdown a
      let y ← engine.evaluateMarkdown b
      return x ++ y := by
  have hane : a.toList ≠ [] := by
    intro hnil
    rw [hnil] at ha
    cases ha
  by_cases hb : b.toList = []
  · rw [String.toList_eq_nil_iff.mp hb, String.append_empty, evaluateMarkdown_empty]
    cases engine.evaluateMarkdown a with
    | error e => rfl
    | ok x => exact congrArg Except.ok String.append_empty.symm
  have hread : readBlocks (lines (a ++ b).toList) =
      readBlocks (lines a.toList) ++ readBlocks (lines b.toList) := by
    rw [String.toList_append, lines_append ha, hdivided]
  have hending : Text.endsWithNewline (a ++ b).toList = Text.endsWithNewline b.toList := by
    rw [String.toList_append, Text.endsWithNewline, List.getLast?_append_of_ne_nil _ hb,
      Text.endsWithNewline]
  rw [evaluateMarkdown_eq, evaluateMarkdown_eq, evaluateMarkdown_eq, hread, hending, ha,
    List.mapM_append]
  cases hfirst : (readBlocks (lines a.toList)).mapM engine.evaluateBlock with
  | error e => rfl
  | ok blocks =>
    cases hsecond : (readBlocks (lines b.toList)).mapM engine.evaluateBlock with
    | error e => rfl
    | ok others =>
      exact congrArg Except.ok (render_append
        (mapM_evaluateBlock_ne_nil (lines_ne_nil hane) hfirst)
        (mapM_evaluateBlock_ne_nil (lines_ne_nil hb) hsecond) _)

/-- A line feed behind a text stands behind the evaluated text. -/
theorem evaluateMarkdown_append_newline {a : String} (h : a.toList.getLast? ≠ some '\r') :
    engine.evaluateMarkdown (a ++ "\n") = do return (← engine.evaluateMarkdown a) ++ "\n" := by
  by_cases hnil : a.toList = []
  · rw [String.toList_eq_nil_iff.mp hnil, String.empty_append, evaluateMarkdown_newline,
      evaluateMarkdown_empty]
    rfl
  cases hending : Text.endsWithNewline a.toList with
  | true =>
    -- an empty line is added
    rw [evaluateMarkdown_append hending, evaluateMarkdown_newline]
    · rfl
    · refine readBlocks_append ?_
      rintro _ ⟨⟩
      decide
  | false =>
    -- the last line is ended, which shows in the text only
    have hlines : lines (a ++ "\n").toList = lines a.toList := by
      rw [String.toList_append]
      exact lines_concat_newline hnil hending h
    have hended : Text.endsWithNewline (a ++ "\n").toList = true := by
      rw [String.toList_append]
      exact beq_iff_eq.mpr List.getLast?_concat
    rw [evaluateMarkdown_eq, evaluateMarkdown_eq, hlines, hended, hending]
    cases (readBlocks (lines a.toList)).mapM engine.evaluateBlock with
    | error e => rfl
    | ok blocks => exact congrArg Except.ok (render_newline blocks)

/-- Sections of a document, with an empty line between them, do not influence each other: if both
are evaluated, so is the document, section by section, and otherwise it fails as the first section
that fails. A carriage return at the end of the first section would be taken for a part of the
empty line. -/
theorem evaluateMarkdown_sections (engine : Engine) {a b : String}
    (h : a.toList.getLast? ≠ some '\r') :
    engine.evaluateMarkdown (a ++ "\n\n" ++ b) = do
      let x ← engine.evaluateMarkdown a
      let y ← engine.evaluateMarkdown b
      return x ++ "\n\n" ++ y := by
  have hends (s : String) : (s ++ "\n").toList.getLast? = some '\n' := by
    rw [String.toList_append]
    exact List.getLast?_concat
  have hended : Text.endsWithNewline (a ++ "\n").toList = true := beq_iff_eq.mpr (hends a)
  have hdivided : readBlocks (lines (a ++ "\n" ++ "\n").toList ++ lines b.toList) =
      readBlocks (lines (a ++ "\n" ++ "\n").toList) ++ readBlocks (lines b.toList) := by
    rw [String.toList_append, lines_append hended]
    exact readBlocks_append_blank _ _
  have hreturn : (a ++ "\n").toList.getLast? ≠ some '\r' := by
    rw [hends]
    decide
  have htwo (s : String) : s ++ "\n\n" = s ++ "\n" ++ "\n" := by
    rw [String.append_assoc]
    rfl
  simp only [htwo]
  rw [evaluateMarkdown_append (beq_iff_eq.mpr (hends _)) hdivided,
    evaluateMarkdown_append_newline hreturn, evaluateMarkdown_append_newline h]
  cases engine.evaluateMarkdown a with
  | error e => rfl
  | ok x => rfl

/-- A table that could still take directives and body lines, and below the empty line a directive
that belongs to no table and a table without a body. -/
theorem evaluateMarkdown_sections_unfinished :
    let a := "| A | B |\n| - | -: |\n| 1 |\n<!-- TBLFM: @2$2=($1+1) -->"
    let b := "<!-- TBLFM: @2$1=0 -->\n| 2 |\n|-|\n"
    let x := "| A   |   B |\n| --- | ---:|\n| 1   |   2 |\n<!-- TBLFM: @2$2=($1+1) -->"
    let y := "<!-- TBLFM: @2$1=0 -->\n| 2   |\n| --- |\n"
    a.toList.getLast? ≠ some '\r' ∧
      standard.evaluateMarkdown a = .ok x ∧
      standard.evaluateMarkdown b = .ok y ∧
      standard.evaluateMarkdown (a ++ "\n\n" ++ b) = .ok (x ++ "\n\n" ++ y) := by
  intro a b x y
  have hreturn : a.toList.getLast? ≠ some '\r' := by decide +kernel
  have hx : standard.evaluateMarkdown a = .ok x := by decide +kernel
  have hy : standard.evaluateMarkdown b = .ok y := by decide +kernel
  have hsections := standard.evaluateMarkdown_sections (b := b) hreturn
  rw [hx, hy] at hsections
  exact ⟨hreturn, hx, hy, hsections⟩

end Engine

end TableCalc
