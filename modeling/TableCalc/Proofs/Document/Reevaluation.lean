import TableCalc.Proofs.Address.Widening
import TableCalc.Proofs.Document.Evaluation
import TableCalc.Proofs.Engine.Padding
import TableCalc.Proofs.Engine.Recalculation

/-!
Evaluating a document that was evaluated before. What the second evaluation reads is written by the
first one: the same tables with trimmed cells, as wide as their separator lines. The formulas of a
table find their own results there if none of them reads what it or a later one writes, and if every
address means the same cells in the wider table.
-/

namespace TableCalc

open Text Document

/-- A formula that counts no column from the last one and whose target is not left open at its right
end. -/
structure Formula.FixedColumns (formula : Formula) : Prop where
  target : formula.target.FixedColumns
  closed : formula.target.finish.column ≠ none
  references : ∀ reference ∈ formula.expr.references, reference.FixedColumns

instance (formula : Formula) : Decidable formula.FixedColumns :=
  decidable_of_iff (formula.target.FixedColumns ∧ formula.target.finish.column ≠ none ∧
      ∀ reference ∈ formula.expr.references, reference.FixedColumns)
    ⟨fun h => ⟨h.1, h.2.1, h.2.2⟩, fun h => ⟨h.target, h.closed, h.references⟩⟩

theorem Formula.FixedColumns.carriesOver {formula : Formula} (h : formula.FixedColumns)
    {extent wide : Extent} (hcolumns : 0 < extent.columns) (hwide : extent.WidensTo wide) :
    formula.CarriesOver extent wide where
  target _ hcells := hwide.targetCells hcolumns h.target h.closed hcells
  references reference hmem _ _ hr := hwide.resolve_reference (h.references reference hmem) hr

/-- Formulas whose addresses mean the same cells when their table becomes as wide as its separator
line: either it is as wide, or it has a column and no address depends on where the last one is. -/
def TableBlock.KeepsColumns (block : TableBlock) (formulas : List Formula) : Prop :=
  block.alignments.length ≤ block.table.extent.columns ∨
    ∀ formula ∈ formulas, 0 < block.table.extent.columns ∧ formula.FixedColumns

instance (block : TableBlock) (formulas : List Formula) :
    Decidable (block.KeepsColumns formulas) :=
  inferInstanceAs (Decidable (_ ∨ _))

/-- A table whose directives, if they can be read, find what they made of it when they are applied
to it again. -/
structure TableBlock.Repeatable (functions : Registry) (block : TableBlock) : Prop where
  literals : block.EscapesLiterals functions
  settled : ∀ formulas, Formula.ofDirectives functions block.directives = .ok formulas →
    Formula.Settled block.table.extent formulas
  columns : ∀ formulas, Formula.ofDirectives functions block.directives = .ok formulas →
    block.KeepsColumns formulas

instance (functions : Registry) (block : TableBlock) : Decidable (block.Repeatable functions) :=
  decidable_of_iff (block.EscapesLiterals functions ∧
      (∀ formulas, Formula.ofDirectives functions block.directives = .ok formulas →
        Formula.Settled block.table.extent formulas) ∧
      ∀ formulas, Formula.ofDirectives functions block.directives = .ok formulas →
        block.KeepsColumns formulas)
    ⟨fun h => ⟨h.1, h.2.1, h.2.2⟩, fun h => ⟨h.literals, h.settled, h.columns⟩⟩

namespace TableBlock

variable {block : TableBlock}

theorem text_trimmed (block : TableBlock) (p : Position) :
    block.trimmed.table.text p = Text.trimmed (block.table.text p) := by
  simp only [Table.text, trimmed, List.getElem?_map]
  cases block.table.rows[p.row]? with
  | none => rfl
  | some row =>
    simp only [Option.map_some, Option.getD_some, List.getElem?_map]
    cases row[p.column]? <;> rfl

theorem table_padded (block : TableBlock) :
    block.padded.table = block.table.padTo block.columnCount := rfl

theorem KeepsColumns.carriesOver {formulas : List Formula} (h : block.KeepsColumns formulas) :
    ∀ formula ∈ formulas, formula.CarriesOver block.table.extent
      ⟨block.table.extent.rows, block.columnCount⟩ := by
  intro formula hformula
  rcases h with hnarrow | hfixed
  · rw [columnCount, Nat.max_eq_left hnarrow]
    exact .refl formula _
  · obtain ⟨hcolumns, hfixed⟩ := hfixed formula hformula
    exact hfixed.carriesOver hcolumns ⟨rfl, Nat.le_max_left _ _⟩

/-- Read again, a table of which some cells were written has the texts that it had in all other
cells, if its own cells were trimmed. -/
theorem agreeAcross_read (hheader : block.table.rows ≠ []) (htrimmed : block.trimmed = block)
    {written : List Position} {after : TableBlock} (hcount : after.columnCount = block.columnCount)
    (h : Table.Written written block.table after.table) :
    Table.AgreeAcross block.table.extent ⟨block.table.extent.rows, block.columnCount⟩
      (· ∉ written) block.table after.trimmed.padded.table := by
  have hextent : after.trimmed.table.extent = block.table.extent := extent_trimmed.trans h.extent
  have hrows : 0 < after.trimmed.table.extent.rows := by
    rw [hextent]
    exact List.length_pos_iff.mpr hheader
  rw [table_padded, columnCount_trimmed, hcount]
  refine ⟨rfl, ?_, fun p hp => ?_⟩
  · have hwide : after.trimmed.table.extent.columns ≤ block.columnCount := by
      rw [hextent]
      exact Nat.le_max_left _ _
    rw [Table.extent_padTo hrows hwide, hextent]
  · rw [Table.text_padTo, text_trimmed, h.kept p hp, ← text_trimmed, htrimmed]

/-- Read again, a table gets columns of its separator line and no other text, which does not show
when it is written once more. -/
theorem lines_read {again : Table} (hrows : again.extent.rows = block.table.extent.rows)
    (hcolumns : again.extent.columns ≤ block.columnCount)
    (htext : ∀ p, again.text p = block.table.text p) :
    lines { block.trimmed.padded with table := again } = block.lines := by
  have htrimmed : { block.trimmed.padded with table := again } =
      { block.padded with table := again } := by
    rw [padded, columnCount_trimmed]
    rfl
  have hcount : columnCount { block.padded with table := again } = block.columnCount := by
    rw [columnCount, block.length_alignments_padded, Nat.max_eq_right hcolumns]
  have htable : again.padTo block.columnCount = block.table.padTo block.columnCount :=
    Table.padTo_eq_padTo hrows hcolumns (Nat.le_max_left _ _) htext
  have halignments : block.padded.alignments.rightpad block.columnCount .unmarked =
      block.padded.alignments := by
    rw [List.rightpad, block.length_alignments_padded, Nat.sub_self, List.replicate_zero,
      List.append_nil]
  have hpadded : padded { block.padded with table := again } = block.padded := by
    rw [padded, hcount, halignments]
    exact congrArg (fun table => { block.padded with table := table }) htable
  rw [htrimmed, ← lines_padded, hpadded, lines_padded]

end TableBlock

namespace Engine

variable {engine : Engine}

/-- The directives of a table do the same to the table that is read after they were applied. -/
theorem evaluate_again {block after : TableBlock} (hheader : block.table.rows ≠ [])
    (htrimmed : block.trimmed = block) (hrepeatable : block.Repeatable engine.functions)
    (hcount : after.columnCount = block.columnCount)
    (h : engine.evaluate block.directives block.table = .ok after.table) :
    ∃ again, engine.evaluate block.directives after.trimmed.padded.table = .ok again ∧
      Table.AgreeAcross block.table.extent ⟨block.table.extent.rows, block.columnCount⟩
        (fun _ => True) after.table again := by
  obtain ⟨formulas, hformulas, happly⟩ := bind_eq_ok_iff.mp h
  have hagree := TableBlock.agreeAcross_read hheader htrimmed hcount (apply_written happly).2
  obtain ⟨again, hagain, hend⟩ := apply_carriesOver
    (hrepeatable.columns formulas hformulas).carriesOver (hrepeatable.settled formulas hformulas)
    hagree happly
  exact ⟨again, bind_eq_ok_iff.mpr ⟨formulas, hformulas, hagain⟩, hend⟩

/-- A block that was evaluated and is read again is evaluated to a block with the same lines. -/
theorem evaluateBlock_again {block after : Block} (hlegible : block.Legible)
    (htrimmed : block.mapTable TableBlock.trimmed = block)
    (hrepeatable : ∀ table ∈ block.table?, table.Repeatable engine.functions)
    (h : engine.evaluateBlock block = .ok after) :
    ∃ again, engine.evaluateBlock
        ((after.mapTable TableBlock.trimmed).mapTable TableBlock.padded) = .ok again ∧
      again.lines = after.lines := by
  cases block with
  | text line =>
    cases h
    exact ⟨.text line, rfl, rfl⟩
  | table block =>
    rw [evaluateBlock_table] at h
    obtain ⟨table, htable, h⟩ := bind_eq_ok_iff.mp h
    cases h
    let after : TableBlock := { block with table := table }
    have hextent : after.table.extent = block.table.extent := evaluate_extent htable
    have hcount : after.columnCount = block.columnCount := TableBlock.columnCount_of_extent hextent
    obtain ⟨again, hagain, hend⟩ := evaluate_again (TableBlock.Legible.header hlegible)
      (Block.table.inj htrimmed) (hrepeatable block rfl) hcount htable
    refine ⟨.table { after.trimmed.padded with table := again }, ?_, ?_⟩
    · rw [Block.mapTable, Block.mapTable, evaluateBlock_table]
      exact bind_eq_ok_iff.mpr ⟨again, hagain, rfl⟩
    · have hlines : TableBlock.lines { after.trimmed.padded with table := again } =
          after.lines := by
        apply TableBlock.lines_read
        · rw [hend.right, hextent]
        · rw [hend.right, hcount]
        · exact fun p => (hend.text p trivial).symm
      rw [Block.lines, hlines]
      rfl

/-- A document that was evaluated and is read again is evaluated to one that is written alike. -/
theorem evaluateDocument_again {document evaluated : Document} (hlegible : document.Legible)
    (htrimmed : document.trimmed = document)
    (hrepeatable : ∀ table ∈ document.tables, table.Repeatable engine.functions)
    (h : engine.evaluateDocument document = .ok evaluated) :
    ∃ again, engine.evaluateDocument evaluated.trimmed.padded = .ok again ∧
      again.render = evaluated.render := by
  obtain ⟨blocks, hblocks, heq⟩ := bind_eq_ok_iff.mp h
  cases heq
  have htrimmed' : ∀ block ∈ document.blocks, block.mapTable TableBlock.trimmed = block := by
    have hmap : document.blocks.map (Block.mapTable TableBlock.trimmed) = document.blocks :=
      congrArg Document.blocks htrimmed
    exact List.map_inj_left.mp (hmap.trans (List.map_id _).symm)
  have hagain : ∀ after ∈ blocks, ∃ again,
      engine.evaluateBlock ((after.mapTable TableBlock.trimmed).mapTable TableBlock.padded) =
        .ok again ∧ again.lines = after.lines := by
    intro after hmem
    obtain ⟨block, hblock, heval⟩ := exists_of_mem_mapM hblocks hmem
    exact evaluateBlock_again (hlegible.blocks block hblock) (htrimmed' block hblock)
      (fun table htable => hrepeatable table (mem_tables hblock htable)) heval
  obtain ⟨again, hrun, hlines⟩ := exists_mapM_eq_ok hagain
  refine ⟨{ document with blocks := again }, ?_, ?_⟩
  · rw [evaluateDocument, Document.padded, Document.trimmed, List.map_map, List.mapM_map]
    exact bind_eq_ok_iff.mpr ⟨again, hrun, rfl⟩
  · have hflat : again.flatMap Block.lines = blocks.flatMap Block.lines := by
      clear hrun hagain h hblocks
      induction hlines with
      | nil => rfl
      | cons hfirst _ ih => rw [List.flatMap_cons, List.flatMap_cons, hfirst, ih]
    rw [render, render, hflat]

/-- A document is still legible when it was evaluated. -/
theorem evaluateDocument_legible (hfunctions : engine.functions.Keeps Confined)
    {document evaluated : Document} (hlegible : document.Legible)
    (hliterals : ∀ table ∈ document.tables, table.EscapesLiterals engine.functions)
    (h : engine.evaluateDocument document = .ok evaluated)
    (hkeeps : evaluated.blocks.IsChain Block.KeepsHeader) : evaluated.Legible := by
  obtain ⟨blocks, hblocks, heq⟩ := bind_eq_ok_iff.mp h
  cases heq
  refine hlegible.of_sameFrame ?_ rfl ?_ hkeeps
  · exact (mapM_eq_ok_iff.mp hblocks).imp fun _ _ => evaluateBlock_sameFrame
  · intro after hmem
    obtain ⟨block, hblock, heval⟩ := exists_of_mem_mapM hblocks hmem
    exact evaluateBlock_legible hfunctions (hlegible.blocks block hblock)
      (fun table htable => hliterals table (mem_tables hblock htable)) heval

/-- Evaluating a document twice changes nothing more: what was written is evaluated to itself. The
conditions are on the formulas of its tables, on the columns that only a separator line has, and on
headers below a line of text that starts with a pipe, which must not come to look like a separator
line. -/
theorem evaluateMarkdown_again {markdown out : String} (hplain : PlainText markdown.toList)
    (hfunctions : engine.functions.Keeps Confined)
    (hrepeatable : ∀ table ∈ (read markdown).tables, table.Repeatable engine.functions)
    (hkeeps : ∀ evaluated, engine.evaluateDocument (read markdown) = .ok evaluated →
      evaluated.blocks.IsChain Block.KeepsHeader)
    (h : engine.evaluateMarkdown markdown = .ok out) : engine.evaluateMarkdown out = .ok out := by
  obtain ⟨evaluated, hevaluated, hout⟩ := bind_eq_ok_iff.mp h
  have hrender : evaluated.render = out := Except.ok.inj hout
  have hlegible : (read markdown).Legible := legible_read hplain
  have hwritten : evaluated.Legible := evaluateDocument_legible hfunctions hlegible
    (fun table htable => (hrepeatable table htable).literals) hevaluated
    (hkeeps evaluated hevaluated)
  obtain ⟨again, hagain, hsame⟩ := evaluateDocument_again hlegible (trimmed_read markdown)
    hrepeatable hevaluated
  have hread : read out = evaluated.trimmed.padded := hrender ▸ hwritten.read_render
  rw [evaluateMarkdown, hread]
  exact bind_eq_ok_iff.mpr ⟨again, hagain, congrArg Except.ok (hsame.trans hrender)⟩

/-- A separator line that is wider than the rows, above formulas that name their columns, and a
table with short rows, a last column and a target that is open at its end. -/
theorem evaluateMarkdown_again_ragged :
    let first := "<!-- TBLFM: @2$2=($1*2) -->"
    let second := "<!-- TBLFM: @>=\" y \"::@2$>=$1..$2 -->"
    let markdown := "| a | b\n|-|:-:|-|\n| 1 |\n" ++ first ++
      "\n| n |\n|-|\n| 4 | 5 | |\n| 6\n" ++ second
    let evaluated : Document :=
      { blocks :=
          [.table
            { table := ⟨[["a", "b"], ["1", "2"]]⟩
              alignments := [.unmarked, .center, .unmarked]
              directives := [first] },
          .table
            { table := ⟨[["n"], ["4", "5", "[4, 5]"], [" y ", " y ", " y "]]⟩
              alignments := [.unmarked]
              directives := [second] }]
        endsWithNewline := false }
    PlainText markdown.toList ∧
      (∀ table ∈ (read markdown).tables, table.Repeatable standard.functions) ∧
      (∀ evaluated, standard.evaluateDocument (read markdown) = .ok evaluated →
        evaluated.blocks.IsChain Block.KeepsHeader) ∧
      standard.evaluateMarkdown markdown = .ok evaluated.render ∧
      standard.evaluateMarkdown evaluated.render = .ok evaluated.render := by
  intro first second markdown evaluated
  have hplain : PlainText markdown.toList := by decide +kernel
  have hrepeatable : ∀ table ∈ (read markdown).tables, table.Repeatable standard.functions := by
    decide +kernel
  have heval : standard.evaluateDocument (read markdown) = .ok evaluated := by decide +kernel
  have hkeeps : ∀ evaluated, standard.evaluateDocument (read markdown) = .ok evaluated →
      evaluated.blocks.IsChain Block.KeepsHeader := by
    rintro _ h
    cases heval.symm.trans h
    decide +kernel
  have h : standard.evaluateMarkdown markdown = .ok evaluated.render :=
    bind_eq_ok_iff.mpr ⟨evaluated, heval, rfl⟩
  exact ⟨hplain, hrepeatable, hkeeps, h,
    evaluateMarkdown_again hplain (Registry.keeps_standard Text.inherited_confined) hrepeatable hkeeps h⟩

/-- Documents that are evaluated to something else when they are evaluated again, although no
formula reads what it or a later one writes and no literal has a pipe or blanks around it. In the
first one the last column is another one once the table is as wide as its separator line. In the
second one the header is taken for a separator line. In the third one a function gives a pipe. -/
theorem evaluateMarkdown_again_ne :
    let bar : Function := { Aggregate.sum with call := fun _ _ => .ok (.single "|") }
    let documents : List (Engine × String) :=
      [(standard, "| A |\n| - | - |\n| 1 |\n<!-- TBLFM: @2$>=5 -->"),
        (standard, "| x\n| A |\n| - |\n| 1 |\n<!-- TBLFM: @1$1=\"-\" -->"),
        (ofFunctions (.ofList [bar]), "| A |\n| - |\n| 1 |\n<!-- TBLFM: @2$1=sum(@1$1) -->")]
    ∀ d ∈ documents, PlainText d.2.toList ∧
      (∀ table ∈ (read d.2).tables, ∀ formulas,
        Formula.ofDirectives d.1.functions table.directives = .ok formulas →
          Formula.Settled table.table.extent formulas ∧
          ∀ formula ∈ formulas, ∀ literal ∈ formula.expr.literals,
            '|' ∉ literal.toList ∧ Text.trimmed literal = literal) ∧
      ¬ ∀ out, d.1.evaluateMarkdown d.2 = .ok out → d.1.evaluateMarkdown out = .ok out := by
  intro bar documents
  simp only [documents, List.forall_mem_cons, List.not_mem_nil, false_implies, implies_true,
    and_true]
  refine ⟨?wide, ?header, ?pipe⟩
  case wide => decide +kernel
  case header => decide +kernel
  case pipe => decide +kernel

end Engine

end TableCalc
