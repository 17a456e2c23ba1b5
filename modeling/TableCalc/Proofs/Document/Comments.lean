import TableCalc.Proofs.Directive.Derivation
import TableCalc.Proofs.Document.Evaluation

/-!
Formulas in comments, below a table. The grammar of directives allows any gap between `<!--` and
`TBLFM:`, but a table collects only lines with a single space there. So a line that can be read as
formulas in a comment is a directive of the table above it just if it has that space; otherwise it
is passed on as text.
-/

namespace TableCalc

open Text Document

/-- The number of lines that a block is read from. -/
def Block.height : Block → Nat
  | .text _ => 1
  | .table block => block.table.rows.length + 1 + block.directives.length

/-- The number of lines that some blocks are read from. -/
def Block.heights : List Block → Nat
  | [] => 0
  | block :: rest => block.height + heights rest

namespace Directive

theorem Grammar.Gap.head_ne {gap rest : List Char} (h : Grammar.Gap gap) (hne : gap ≠ []) :
    (gap ++ rest).head? ≠ some '<' := by
  obtain ⟨c, more, rfl⟩ := List.exists_cons_of_ne_nil hne
  intro hhead
  rcases h c List.mem_cons_self with rfl | rfl <;> cases hhead

/-- A derivable text that starts like a comment has a gap before the name of the comment. -/
theorem Grammar.Root.exists_gap {cs : List Char} {trees : List FormulaTree}
    (h : Grammar.Root cs trees) (hcomment : commentStart <+: cs) :
    ∃ gap rest, Grammar.Gap gap ∧ cs = commentStart ++ gap ++ commentName ++ rest := by
  have hhead : cs.head? = some '<' := by
    obtain ⟨rest, rfl⟩ := hcomment
    rfl
  cases h with
  | @bare before text after _ hbefore h _ =>
    obtain ⟨axis, more, rfl⟩ := formulas_head h
    rw [List.append_assoc] at hhead
    by_cases hnil : before = []
    · rw [hnil] at hhead
      cases axis <;> cases hhead
    · exact absurd hhead (hbefore.head_ne hnil)
  | @wrapped before mark text closing after _ hbefore hmark _ _ _ =>
    cases hmark with
    | @mk gap afterName hgap _ =>
      by_cases hnil : before = []
      · refine ⟨gap, afterName ++ text ++ closing ++ ['-', '-', '>'] ++ after, hgap, ?_⟩
        simp [hnil, commentStart, commentName]
      · simp only [List.append_assoc] at hhead
        exact absurd hhead (hbefore.head_ne hnil)

end Directive

/-- The formulas of a directive stand together among those of all directives. -/
theorem Formula.infix_of_ofDirectives {functions : Registry} {directives : List String}
    {all formulas : List Formula} {directive : String} (hmem : directive ∈ directives)
    (hall : ofDirectives functions directives = .ok all)
    (h : ofDirective functions directive = .ok formulas) : formulas <:+: all := by
  obtain ⟨lists, hlists, heq⟩ := bind_eq_ok_iff.mp hall
  cases heq
  obtain ⟨before, after, rfl⟩ := List.mem_iff_append.mp hmem
  rw [List.mapM_append] at hlists
  obtain ⟨earlier, _, hlists⟩ := bind_eq_ok_iff.mp hlists
  obtain ⟨others, hothers, heq⟩ := bind_eq_ok_iff.mp hlists
  cases heq
  rw [List.mapM_cons, h] at hothers
  obtain ⟨_, ⟨⟩, hothers⟩ := bind_eq_ok_iff.mp hothers
  obtain ⟨later, _, heq⟩ := bind_eq_ok_iff.mp hothers
  cases heq
  exact ⟨earlier.flatten, later.flatten, by simp⟩

namespace Document

/-- The lines of some blocks and those of the blocks below them. -/
theorem Divided.split {ls : List (List Char)} {before after : List Block}
    (h : Divided ls (before ++ after)) :
    ∃ above below, ls = above ++ below ∧ above.length = Block.heights before ∧
      Divided below after := by
  induction before generalizing ls with
  | nil => exact ⟨[], ls, rfl, rfl, h⟩
  | cons block rest ih =>
    cases h with
    | @text line _ _ _ more =>
      obtain ⟨above, below, rfl, hlength, hbelow⟩ := ih more
      refine ⟨line :: above, below, rfl, ?_, hbelow⟩
      rw [List.length_cons, hlength, Nat.add_comm]
      rfl
    | @table header separator body directives _ _ _ _ _ _ _ _ more =>
      obtain ⟨above, below, rfl, hlength, hbelow⟩ := ih more
      refine ⟨header :: separator :: (body ++ (directives ++ above)), below, ?_, ?_, hbelow⟩
      · simp
      · simp only [List.length_cons, List.length_append, hlength, Block.heights, Block.height,
          readTable, List.length_map]
        omega

/-- A line below the body of a table is a directive that the table collects, or the first line
behind the table. -/
theorem Divided.line_below_body {ls : List (List Char)} {block : TableBlock} {after : List Block}
    (h : Divided ls (.table block :: after)) {k : Nat} (hk : k ≤ block.directives.length)
    {line : List Char} (hline : ls[block.table.rows.length + 1 + k]? = some line) :
    (isDirective line = true ∧ block.directives[k]? = some (.ofList line)) ∨
      (isDirective line = false ∧ k = block.directives.length ∧
        (isTableLine line = false → after.head? = some (.text (.ofList line)))) := by
  cases h with
  | @table header separator body directives rest _ _ _ _ directive_lines _ directives_end more =>
    have hindex : (readTable header separator body directives).table.rows.length + 1 + k =
        body.length + k + 1 + 1 := by
      simp only [readTable, List.length_map, List.length_cons]
      omega
    have hlength : (readTable header separator body directives).directives.length =
        directives.length := List.length_map _
    rw [hindex, List.getElem?_cons_succ, List.getElem?_cons_succ,
      List.getElem?_append_right (Nat.le_add_right _ _), Nat.add_sub_cancel_left] at hline
    rw [hlength] at hk ⊢
    rcases Nat.lt_or_eq_of_le hk with hlt | rfl
    · rw [List.getElem?_append_left hlt] at hline
      refine .inl ⟨directive_lines line (List.mem_of_getElem? hline), ?_⟩
      rw [readTable, List.getElem?_map, hline]
      rfl
    · rw [List.getElem?_append_right (Nat.le_refl _), Nat.sub_self, ← List.head?_eq_getElem?]
        at hline
      refine .inr ⟨directives_end line hline, rfl, fun htable => ?_⟩
      cases more with
      | nil => cases hline
      | text _ _ =>
        cases hline
        rfl
      | table first _ _ _ _ _ _ =>
        cases hline
        exact absurd first (Bool.eq_false_iff.mp htable)

/-- A line with formulas in a comment is marked as a directive if the gap in it is one space. -/
theorem isDirective_iff_gap {line gap rest : List Char} (hgap : Directive.Grammar.Gap gap)
    (h : trim line = Directive.commentStart ++ gap ++ Directive.commentName ++ rest) :
    isDirective line = true ↔ gap = [' '] := by
  obtain ⟨blanks, hstart⟩ : trim line <+: trimStart line := List.rdropWhile_prefix _ _
  have hline : isDirective line = true ↔
      [' '] ++ Directive.commentName <+: gap ++ (Directive.commentName ++ (rest ++ blanks)) := by
    rw [isDirective, List.isPrefixOf_iff_prefix, ← hstart, h]
    simp only [List.append_assoc]
    exact List.prefix_append_right_inj Directive.commentStart
  rw [hline]
  constructor
  · intro hprefix
    cases gap with
    | nil => exact absurd (List.cons_prefix_cons.mp hprefix).1 (by decide)
    | cons c more =>
      obtain ⟨rfl, hname⟩ := List.cons_prefix_cons.mp hprefix
      cases more with
      | nil => rfl
      | cons d _ =>
        obtain ⟨rfl, _⟩ := List.cons_prefix_cons.mp hname
        exact absurd (hgap 'T' (by simp)) (by decide)
  · rintro rfl
    rw [← List.append_assoc]
    exact List.prefix_append _ _

/-- A line right below the body of a table, or below directives that the table has collected, and
that reads as formulas in a comment, is `<!--`, a gap, `TBLFM:` and so on. If the gap is a single
space, the table collects the line as its next directive, and evaluating the table applies its
formulas in their turn. With any other gap, none at all or a tab among them, the line is text behind
the table. -/
theorem comment_below_table {functions : Registry} {markdown : String} {before after : List Block}
    {block : TableBlock} (hblocks : (read markdown).blocks = before ++ .table block :: after)
    {k : Nat} (hk : k ≤ block.directives.length) {line : List Char}
    (hline : (lines markdown.toList)[
      Block.heights before + block.table.rows.length + 1 + k]? = some line)
    (hcomment : Directive.commentStart <+: trim line) {formulas : List Formula}
    (hformulas : Formula.ofDirective functions (.ofList line) = .ok formulas) :
    ∃ gap rest, Directive.Grammar.Gap gap ∧
      trim line = Directive.commentStart ++ gap ++ Directive.commentName ++ rest ∧
      (gap = [' '] → block.directives[k]? = some (.ofList line) ∧
        ∀ engine : Engine, engine.functions = functions → ∀ evaluated,
          engine.evaluateDocument (read markdown) = .ok evaluated →
          ∃ all table, formulas <:+: all ∧ engine.apply all block.table = .ok table ∧
            evaluated.blocks[before.length]? = some (.table { block with table := table })) ∧
      (gap ≠ [' '] → k = block.directives.length ∧ after.head? = some (.text (.ofList line))) := by
  obtain ⟨trees, hroot⟩ := Formula.root_of_ofDirective hformulas
  rw [String.toList_ofList] at hroot
  obtain ⟨gap, rest, hgap, htrim⟩ := hroot.exists_gap hcomment
  have hkind := isDirective_iff_gap hgap htrim
  have hdivided := divided_readBlocks (lines markdown.toList)
  rw [show readBlocks (lines markdown.toList) = before ++ .table block :: after from hblocks]
    at hdivided
  obtain ⟨above, below, hlines, hlength, hbelow⟩ := hdivided.split
  have hindex : Block.heights before + block.table.rows.length + 1 + k =
      above.length + (block.table.rows.length + 1 + k) := by omega
  rw [hlines, hindex, List.getElem?_append_right (Nat.le_add_right _ _),
    Nat.add_sub_cancel_left] at hline
  refine ⟨gap, rest, hgap, htrim, fun hspace => ?collected, fun hspace => ?text⟩
  case collected =>
    have hdirective := hkind.mpr hspace
    rcases hbelow.line_below_body hk hline with ⟨_, hcollected⟩ | ⟨hother, _⟩
    · refine ⟨hcollected, ?_⟩
      rintro engine rfl evaluated heval
      obtain ⟨blocks, hevaluated, heq⟩ := bind_eq_ok_iff.mp heval
      cases heq
      have hat : (read markdown).blocks[before.length]? = some (.table block) := by
        rw [hblocks]
        simp
      obtain ⟨_, hresult, heval⟩ := getElem?_of_mapM hevaluated hat
      rw [Engine.evaluateBlock_table] at heval
      obtain ⟨table, htable, heq⟩ := bind_eq_ok_iff.mp heval
      cases heq
      obtain ⟨all, hall, happly⟩ := bind_eq_ok_iff.mp htable
      exact ⟨all, table, Formula.infix_of_ofDirectives (List.mem_of_getElem? hcollected) hall
        hformulas, happly, hresult⟩
    · rw [hdirective] at hother
      cases hother
  case text =>
    have hdirective : isDirective line = false := Bool.eq_false_iff.mpr (mt hkind.mp hspace)
    rcases hbelow.line_below_body hk hline with ⟨hother, _⟩ | ⟨_, hk, hafter⟩
    · rw [hdirective] at hother
      cases hother
    · refine ⟨hk, hafter ?_⟩
      obtain ⟨more, hmore⟩ := hcomment
      rw [isTableLine, ← head?_trim, ← hmore]
      rfl

/-- The second directive below a table without a body, indented and with no space behind the name of
its comment. -/
theorem comment_below_table_indented :
    let first := "<!-- TBLFM: @1$1=2 -->"
    let second := " <!-- TBLFM:@1$2=3--> "
    let markdown := "a\n| A | B |\n| - | - |\n" ++ first ++ "\n" ++ second ++ "\nb"
    let block : TableBlock :=
      ⟨⟨[["A", "B"]]⟩, [.unmarked, .unmarked], [first, second]⟩
    let formulas : List Formula :=
      [⟨"@1$2=3", .cell ⟨some (.index 1), some (.index 2)⟩, .literal "3", none⟩]
    (read markdown).blocks = [.text "a"] ++ .table block :: [.text "b"] ∧
      (lines markdown.toList)[Block.heights [.text "a"] + 1 + 1 + 1]? =
        some second.toList ∧
      Directive.commentStart <+: trim second.toList ∧
      Formula.ofDirective .standard (.ofList second.toList) = .ok formulas ∧
      ∃ gap rest, Directive.Grammar.Gap gap ∧
        trim second.toList = Directive.commentStart ++ gap ++ Directive.commentName ++ rest ∧
        (gap = [' '] → block.directives[1]? = some (.ofList second.toList) ∧
          ∀ engine : Engine, engine.functions = .standard → ∀ evaluated,
            engine.evaluateDocument (read markdown) = .ok evaluated →
            ∃ all table, formulas <:+: all ∧ engine.apply all block.table = .ok table ∧
              evaluated.blocks[1]? = some (.table { block with table := table })) ∧
        (gap ≠ [' '] → 1 = 2 ∧ [Block.text "b"].head? = some (.text (.ofList second.toList))) := by
  intro first second markdown block formulas
  have hblocks : (read markdown).blocks = [.text "a"] ++ .table block :: [.text "b"] := by
    decide +kernel
  have hline : (lines markdown.toList)[Block.heights [.text "a"] + 1 + 1 + 1]? =
      some second.toList := by
    decide +kernel
  have hcomment : Directive.commentStart <+: trim second.toList := by decide +kernel
  have hformulas : Formula.ofDirective .standard (.ofList second.toList) = .ok formulas := by
    decide +kernel
  exact ⟨hblocks, hline, hcomment, hformulas,
    comment_below_table (k := 1) hblocks (by decide) hline hcomment hformulas⟩

/-- Without a space before the name of its comment, a directive is read as formulas but not
collected by the table above it, and the table stays as it is. -/
theorem comment_below_table_unspaced :
    let line := "<!--TBLFM: @2$1=5-->"
    let markdown := "| A |\n| - |\n| 1 |\n" ++ line
    (Formula.ofDirective .standard line).toOption.isSome ∧
      (read markdown).blocks =
        [.table ⟨⟨[["A"], ["1"]]⟩, [.unmarked], []⟩, .text line] ∧
      Engine.standard.evaluateMarkdown markdown = .ok ("| A   |\n| --- |\n| 1   |\n" ++ line) := by
  decide +kernel

end Document

end TableCalc
