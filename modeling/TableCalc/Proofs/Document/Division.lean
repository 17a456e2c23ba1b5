import TableCalc.Proofs.Document.Kinds

/-!
The division of lines into blocks. The kinds of the lines decide it: a header with a separator line
behind it starts a table, which takes all lines that can belong to it, and any other line is text.
Reading finds that division, and there is no other.
-/

namespace TableCalc

open Text

namespace Document

/-- Lines divided into blocks. A table ends where no line of it and no directive follows. -/
inductive Divided : List (List Char) → List Block → Prop where
  | nil : Divided [] []
  | text {line : List Char} {rest : List (List Char)} {blocks : List Block}
      (header : isTableLine line = true → ∀ next ∈ rest.head?, isSeparator next = false)
      (more : Divided rest blocks) :
      Divided (line :: rest) (.text (.ofList line) :: blocks)
  | table {header separator : List Char} {body directives rest : List (List Char)}
      {blocks : List Block} (first : isTableLine header = true)
      (second : isSeparator separator = true) (body_lines : ∀ line ∈ body, isTableLine line = true)
      (directive_lines : ∀ line ∈ directives, isDirective line = true)
      (body_ends : directives = [] → ∀ next ∈ rest.head?, isTableLine next = false)
      (directives_end : ∀ next ∈ rest.head?, isDirective next = false)
      (more : Divided rest blocks) :
      Divided (header :: separator :: (body ++ (directives ++ rest)))
        (.table (readTable header separator body directives) :: blocks)

theorem readBlocks_text {line : List Char} {rest : List (List Char)}
    (h : isTableLine line = true → ∀ next ∈ rest.head?, isSeparator next = false) :
    readBlocks (line :: rest) = .text (.ofList line) :: readBlocks rest := by
  cases rest with
  | nil => rw [readBlocks, readBlocks]
  | cons next rest =>
    have hheader : ¬ (isTableLine line && isSeparator next) = true := by
      rw [Bool.and_eq_true]
      rintro ⟨htable, hseparator⟩
      rw [h htable next rfl] at hseparator
      cases hseparator
    rw [readBlocks, if_neg hheader]

theorem readBlocks_table {header separator : List Char} {rest : List (List Char)}
    (hheader : isTableLine header = true) (hseparator : isSeparator separator = true) :
    readBlocks (header :: separator :: rest) =
      .table (readTable header separator (rest.takeWhile isTableLine)
        ((rest.dropWhile isTableLine).takeWhile isDirective)) ::
      readBlocks ((rest.dropWhile isTableLine).dropWhile isDirective) := by
  rw [readBlocks, if_pos (by rw [hheader, hseparator]; rfl)]

theorem Divided.readBlocks_eq {ls : List (List Char)} {blocks : List Block}
    (h : Divided ls blocks) : readBlocks ls = blocks := by
  induction h with
  | nil => rw [readBlocks]
  | text header _ ih => rw [readBlocks_text header, ih]
  | @table header separator body directives rest blocks first second body_lines directive_lines
      body_ends directives_end _ ih =>
    have hafter : ∀ next ∈ (directives ++ rest).head?, isTableLine next = false := by
      cases directives with
      | nil => exact body_ends rfl
      | cons directive _ =>
        rintro _ ⟨⟩
        exact isTableLine_eq_false (directive_lines directive List.mem_cons_self)
    rw [readBlocks_table first second, takeWhile_append body_lines hafter,
      dropWhile_append body_lines hafter, takeWhile_append directive_lines directives_end,
      dropWhile_append directive_lines directives_end, ih]

theorem divided_readBlocks (ls : List (List Char)) : Divided ls (readBlocks ls) := by
  fun_induction readBlocks ls with
  | case1 => exact .nil
  | case2 line => exact .text (fun _ next hnext => by cases hnext) .nil
  | case3 header separator rest hheader body afterBody ih =>
    rw [Bool.and_eq_true] at hheader
    have hrest : rest =
        body ++ (afterBody.takeWhile isDirective ++ afterBody.dropWhile isDirective) := by
      rw [List.takeWhile_append_dropWhile, List.takeWhile_append_dropWhile]
    have hbody := stops_dropWhile isTableLine rest
    rw [hrest]
    refine .table hheader.1 hheader.2 (List.all_eq_true.mp List.all_takeWhile)
      (List.all_eq_true.mp List.all_takeWhile) ?_ (stops_dropWhile isDirective afterBody) ih
    intro hnone
    rwa [← List.nil_append (afterBody.dropWhile isDirective), ← hnone,
      List.takeWhile_append_dropWhile]
  | case4 line next rest hheader ih =>
    refine .text ?_ ih
    rintro htable _ ⟨⟩
    simpa [htable] using hheader

theorem Divided.eq_nil_iff {ls : List (List Char)} {blocks : List Block} (h : Divided ls blocks) :
    ls = [] ↔ blocks = [] := by
  cases h <;> simp

/-- Lines divide apart from what stands above them where they start with a line that belongs to no
table and is no directive. -/
theorem Divided.append {ls more : List (List Char)} {blocks others : List Block}
    (h : Divided ls blocks)
    (hmore : ∀ next ∈ more.head?, isTableLine next = false ∧ isDirective next = false)
    (hothers : Divided more others) : Divided (ls ++ more) (blocks ++ others) := by
  -- what no first line of the rest is, the first line of the rest and these lines is not either
  have hnext {rest : List (List Char)} {P : List Char → Prop} (hrest : ∀ next ∈ rest.head?, P next)
      (hP : ∀ next ∈ more.head?, P next) : ∀ next ∈ (rest ++ more).head?, P next := by
    cases rest with
    | nil => exact hP
    | cons => exact hrest
  induction h with
  | nil => exact hothers
  | text header _ ih =>
    refine .text (fun htable => hnext (header htable) fun next hmem => ?_) ih
    rw [← Bool.not_eq_true, isSeparator_iff, (hmore next hmem).1]
    exact fun hseparator => Bool.false_ne_true hseparator.1
  | table first second body_lines directive_lines body_ends directives_end _ ih =>
    rw [List.cons_append, List.cons_append, List.append_assoc, List.append_assoc]
    exact .table first second body_lines directive_lines
      (fun hnone => hnext (body_ends hnone) fun next hmem => (hmore next hmem).1)
      (hnext directives_end fun next hmem => (hmore next hmem).2) ih

theorem readBlocks_append {ls more : List (List Char)}
    (hmore : ∀ next ∈ more.head?, isTableLine next = false ∧ isDirective next = false) :
    readBlocks (ls ++ more) = readBlocks ls ++ readBlocks more :=
  ((divided_readBlocks ls).append hmore (divided_readBlocks more)).readBlocks_eq

end Document

end TableCalc
