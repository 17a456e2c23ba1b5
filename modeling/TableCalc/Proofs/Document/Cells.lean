import Mathlib.Data.List.Chain
import TableCalc.Document.Reader
import TableCalc.Proofs.Text.Blank

/-!
Cells on a line. A text keeps to one cell if each pipe in it stands right after a backslash: then it
is one piece of the line wherever it is written between two pipes, unless a backslash at its end
meets the pipe behind it. Reading a line gives such texts only.
-/

namespace TableCalc.Document

open Text

/-- A text in which every pipe stands right after a backslash. -/
def PipesEscaped (cs : List Char) : Prop :=
  (' ' :: cs).IsChain fun before c => c = '|' → before = '\\'

instance (cs : List Char) : Decidable (PipesEscaped cs) :=
  inferInstanceAs (Decidable ((' ' :: cs).IsChain _))

namespace PipesEscaped

theorem of_not_mem {cs : List Char} (h : '|' ∉ cs) : PipesEscaped cs := by
  have hchain (before : Char) : (before :: cs).IsChain fun before c => c = '|' → before = '\\' := by
    induction cs generalizing before with
    | nil => exact .singleton before
    | cons c rest ih =>
      rw [List.mem_cons, not_or] at h
      exact .cons_cons (fun heq => absurd heq.symm h.1) (ih h.2 c)
  exact hchain ' '

/-- Whatever stands in front of such a text, it does not end there. -/
theorem head_ne {cs : List Char} (h : PipesEscaped cs) : cs.head? ≠ some '|' := by
  intro hhead
  have hfirst := (List.isChain_cons.mp h).1 '|' hhead rfl
  exact absurd hfirst (by decide)

theorem append {cs ds : List Char} (hcs : PipesEscaped cs) (hds : PipesEscaped ds) :
    PipesEscaped (cs ++ ds) := by
  refine List.IsChain.append hcs (List.isChain_cons.mp hds).2 ?_
  rintro x _ y hy rfl
  exact absurd hy hds.head_ne

theorem of_append_left {cs ds : List Char} (h : PipesEscaped (cs ++ ds)) : PipesEscaped cs :=
  List.IsChain.left_of_append (show List.IsChain _ ((' ' :: cs) ++ ds) from h)

/-- A text without what stands in front of it, unless that was a backslash in front of a pipe. -/
theorem of_append_right (cs : List Char) {ds : List Char} (h : PipesEscaped (cs ++ ds))
    (hcs : cs.getLast? = some '\\' → ds.head? ≠ some '|') : PipesEscaped ds := by
  obtain ⟨_, hds, hends⟩ := List.isChain_append.mp (show List.IsChain _ ((' ' :: cs) ++ ds) from h)
  refine List.isChain_cons.mpr ⟨?_, hds⟩
  rintro y hy rfl
  have hlast : (' ' :: cs).getLast? = some (cs.getLast?.getD ' ') := List.getLast?_cons
  have hescape := hends _ hlast '|' hy rfl
  cases hcase : cs.getLast? with
  | none =>
    rw [hcase] at hescape
    exact absurd hescape (by decide)
  | some last =>
    rw [hcase, Option.getD_some] at hescape
    exact absurd hy (hcs (hescape ▸ hcase))

theorem trim {cs : List Char} (h : PipesEscaped cs) : PipesEscaped (trim cs) := by
  obtain ⟨before, after, hcs, hbefore, _⟩ := exists_trim cs
  rw [hcs, List.append_assoc] at h
  refine (of_append_right before h fun hlast => ?_).of_append_left
  -- what is trimmed away is blank, so it escapes nothing
  exact absurd (hbefore '\\' (List.mem_of_getLast? hlast)) (by decide)

end PipesEscaped

/-- A text that stays in its cell when it is written on a line. -/
structure Confined (text : String) : Prop where
  pipes : PipesEscaped text.toList
  feed : '\n' ∉ text.toList

instance (text : String) : Decidable (Confined text) :=
  decidable_of_iff (PipesEscaped text.toList ∧ '\n' ∉ text.toList)
    ⟨fun h => ⟨h.1, h.2⟩, fun h => ⟨h.pipes, h.feed⟩⟩

/-- Rows of texts that stay in their cells. -/
def ConfinedRows (rows : List (List String)) : Prop := ∀ row ∈ rows, ∀ text ∈ row, Confined text

/-- A text without a line feed. -/
def OnOneLine (text : String) : Prop := '\n' ∉ text.toList

instance (text : String) : Decidable (OnOneLine text) :=
  inferInstanceAs (Decidable ('\n' ∉ text.toList))

/-- Rows of texts with a property. -/
def AllCells (P : String → Prop) (rows : List (List String)) : Prop :=
  ∀ row ∈ rows, ∀ text ∈ row, P text

theorem AllCells.mono {P Q : String → Prop} {rows : List (List String)} (h : AllCells P rows)
    (hPQ : ∀ text, P text → Q text) : AllCells Q rows :=
  fun row hrow text htext => hPQ text (h row hrow text htext)

theorem flatten_extendFirst (cs : List Char) (ps : List (List Char)) :
    (extendFirst cs ps).flatten = cs ++ ps.flatten := by
  cases ps with
  | nil => rfl
  | cons p rest => simp [extendFirst]

theorem mem_extendFirst {cs p : List Char} {ps : List (List Char)} (h : p ∈ extendFirst cs ps) :
    p = cs ∨ (∃ q ∈ ps, p = cs ++ q) ∨ p ∈ ps := by
  cases ps with
  | nil => exact .inl (List.mem_singleton.mp h)
  | cons q rest =>
    rcases List.mem_cons.mp h with rfl | hrest
    · exact .inr (.inl ⟨q, List.mem_cons_self, rfl⟩)
    · exact .inr (.inr (List.mem_cons_of_mem q hrest))

theorem pipesEscaped_of_mem_extendFirst {cs p : List Char} {ps : List (List Char)}
    (hcs : PipesEscaped cs) (hps : ∀ q ∈ ps, PipesEscaped q) (h : p ∈ extendFirst cs ps) :
    PipesEscaped p := by
  rcases mem_extendFirst h with rfl | ⟨q, hq, rfl⟩ | hp
  · exact hcs
  · exact hcs.append (hps q hq)
  · exact hps p hp

theorem pipesEscaped_of_mem_pieces {cs p : List Char} (h : p ∈ pieces cs) : PipesEscaped p := by
  fun_induction pieces cs generalizing p with
  | case1 =>
    rw [List.mem_singleton.mp h]
    decide
  | case2 rest ih => exact pipesEscaped_of_mem_extendFirst (by decide) (fun q hq => ih hq) h
  | case3 rest ih =>
    rcases List.mem_cons.mp h with rfl | hrest
    · decide
    · exact ih hrest
  | case4 c rest _ hc ih =>
    have hpipe : '|' ∉ [c] := fun hmem => hc (List.mem_singleton.mp hmem).symm
    exact pipesEscaped_of_mem_extendFirst (.of_not_mem hpipe) (fun q hq => ih hq) h

/-- The characters of pieces are those of the line. -/
theorem mem_of_mem_flatten_pieces {cs : List Char} {c : Char} (h : c ∈ (pieces cs).flatten) :
    c ∈ cs := by
  fun_induction pieces cs with
  | case1 => exact h
  | case2 rest ih =>
    rw [flatten_extendFirst, List.mem_append] at h
    exact List.mem_append.mpr (h.imp_right ih)
  | case3 rest ih => exact List.mem_cons_of_mem _ (ih h)
  | case4 d rest _ _ ih =>
    rw [flatten_extendFirst, List.mem_append] at h
    exact List.mem_append.mpr (h.imp_right ih)

/-- Only pipes are left out of the pieces of a line. -/
theorem mem_flatten_pieces {cs : List Char} {c : Char} (h : c ∈ cs) (hc : c ≠ '|') :
    c ∈ (pieces cs).flatten := by
  fun_induction pieces cs with
  | case1 => exact h
  | case2 rest ih =>
    have hsplit : c ∈ ['\\', '|'] ∨ c ∈ rest := List.mem_append.mp h
    rw [flatten_extendFirst]
    exact List.mem_append.mpr (hsplit.imp_right ih)
  | case3 rest ih => exact ih ((List.mem_cons.mp h).resolve_left hc)
  | case4 d rest _ _ ih =>
    have hsplit : c ∈ [d] ∨ c ∈ rest := List.mem_append.mp h
    rw [flatten_extendFirst]
    exact List.mem_append.mpr (hsplit.imp_right ih)

/-- A text that keeps to its cell is one piece of a line if it stands in front of a pipe that it
does not escape. -/
theorem pieces_append_pipe {cs : List Char} (h : PipesEscaped cs) (hlast : cs.getLast? ≠ some '\\')
    (rest : List Char) : pieces (cs ++ '|' :: rest) = cs :: pieces rest := by
  fun_induction pieces cs with
  | case1 => rfl
  | case2 tail ih =>
    have htail : PipesEscaped tail := .of_append_right ['\\', '|'] h (by simp)
    have hend : tail.getLast? ≠ some '\\' := by
      intro heq
      simp [List.getLast?_cons, heq] at hlast
    rw [List.cons_append, List.cons_append, pieces, ih htail hend]
    rfl
  | case3 tail _ => exact absurd rfl h.head_ne
  | case4 c tail hpair hc ih =>
    have hhead : c = '\\' → tail.head? ≠ some '|' := by
      intro heq hhead
      obtain ⟨more, rfl⟩ := List.head?_eq_some_iff.mp hhead
      exact hpair more heq rfl
    have htail : PipesEscaped tail :=
      .of_append_right [c] h (by simpa using hhead)
    have hend : tail.getLast? ≠ some '\\' := by
      intro heq
      simp [List.getLast?_cons, heq] at hlast
    rw [List.cons_append, pieces, ih htail hend]
    · rfl
    · intro more heq htails
      cases tail with
      | nil => exact hlast (by rw [heq]; rfl)
      | cons d ds =>
        cases htails
        exact hhead heq rfl
    · exact hc

theorem dropBlankEnd_append_nil (ps : List (List Char)) : dropBlankEnd (ps ++ [[]]) = ps := by
  simp [dropBlankEnd]

theorem mem_of_mem_dropBlankEnd {ps : List (List Char)} {p : List Char} (h : p ∈ dropBlankEnd ps) :
    p ∈ ps := by
  rw [dropBlankEnd] at h
  split at h
  · split at h
    · exact (List.dropLast_sublist ps).mem h
    · exact h
  · cases h

/-- Only a blank piece is dropped. -/
theorem mem_dropBlankEnd {ps : List (List Char)} {p : List Char} (h : p ∈ ps) {c : Char}
    (hc : c ∈ p) (hblank : isBlank c = false) : p ∈ dropBlankEnd ps := by
  rw [dropBlankEnd]
  split
  · next last hlast =>
    split
    · next hall =>
      obtain ⟨init, rfl⟩ := List.getLast?_eq_some_iff.mp hlast
      rw [List.dropLast_concat]
      rcases List.mem_append.mp h with hinit | hend
      · exact hinit
      · rw [List.mem_singleton.mp hend] at hc
        rw [List.all_eq_true.mp hall c hc] at hblank
        cases hblank
    · exact h
  · next hnone =>
    rw [List.getLast?_eq_none_iff.mp hnone] at h
    cases h

theorem mem_of_mem_withoutFirstPipe {cs : List Char} {c : Char} (h : c ∈ withoutFirstPipe cs) :
    c ∈ cs := by
  unfold withoutFirstPipe at h
  split at h
  · exact List.mem_cons_of_mem _ h
  · exact h

theorem mem_withoutFirstPipe {cs : List Char} {c : Char} (h : c ∈ cs) (hc : c ≠ '|') :
    c ∈ withoutFirstPipe cs := by
  unfold withoutFirstPipe
  split
  · exact (List.mem_cons.mp h).resolve_left hc
  · exact h

section SplitRow

variable {line : List Char} {text : String}

theorem exists_piece_of_mem_splitRow (h : text ∈ splitRow line) :
    ∃ piece ∈ pieces (withoutFirstPipe (trim line)), text = .ofList (trim piece) := by
  obtain ⟨piece, hpiece, rfl⟩ := List.mem_map.mp h
  exact ⟨piece, mem_of_mem_dropBlankEnd hpiece, rfl⟩

theorem pipesEscaped_of_mem_splitRow (h : text ∈ splitRow line) : PipesEscaped text.toList := by
  obtain ⟨piece, hpiece, rfl⟩ := exists_piece_of_mem_splitRow h
  rw [String.toList_ofList]
  exact (pipesEscaped_of_mem_pieces hpiece).trim

theorem trimmed_of_mem_splitRow (h : text ∈ splitRow line) : trimmed text = text := by
  obtain ⟨piece, _, rfl⟩ := exists_piece_of_mem_splitRow h
  rw [trimmed, String.toList_ofList, trim_eq_self (isTrimmed_trim piece)]

theorem mem_of_mem_splitRow (h : text ∈ splitRow line) {c : Char} (hc : c ∈ text.toList) :
    c ∈ line := by
  obtain ⟨piece, hpiece, rfl⟩ := exists_piece_of_mem_splitRow h
  rw [String.toList_ofList] at hc
  have hflatten : c ∈ (pieces (withoutFirstPipe (trim line))).flatten :=
    List.mem_flatten.mpr ⟨piece, hpiece, mem_of_mem_trim hc⟩
  exact mem_of_mem_trim (mem_of_mem_withoutFirstPipe (mem_of_mem_flatten_pieces hflatten))

/-- What is neither a pipe nor blank is found in some cell. -/
theorem exists_mem_splitRow {c : Char} (h : c ∈ line) (hpipe : c ≠ '|')
    (hblank : isBlank c = false) : ∃ text ∈ splitRow line, c ∈ text.toList := by
  have hflatten := mem_flatten_pieces (mem_withoutFirstPipe (mem_trim_of_mem h hblank) hpipe) hpipe
  obtain ⟨piece, hpiece, hc⟩ := List.mem_flatten.mp hflatten
  refine ⟨_, List.mem_map.mpr ⟨piece, mem_dropBlankEnd hpiece hc hblank, rfl⟩, ?_⟩
  rw [String.toList_ofList]
  exact mem_trim_of_mem hc hblank

end SplitRow

theorem isTrimmed_closed (cells : List (List Char)) :
    IsTrimmed ('|' :: cells.flatMap (· ++ ['|'])) := by
  refine ⟨stops_of_head (by decide) _, ?_⟩
  rcases List.eq_nil_or_concat cells with rfl | ⟨init, last, rfl⟩
  · exact stops_of_head (by decide) []
  · simp only [List.concat_eq_append, List.flatMap_append, List.flatMap_singleton,
      List.reverse_cons, List.reverse_append]
    exact stops_of_head (by decide) _

/-- Cells with a pipe behind each one, none of which ends with a backslash, are read back. -/
theorem splitRow_closed {cells : List (List Char)}
    (h : ∀ cell ∈ cells, PipesEscaped cell ∧ cell.getLast? ≠ some '\\') :
    splitRow ('|' :: cells.flatMap (· ++ ['|'])) = cells.map fun cell => .ofList (trim cell) := by
  have hpieces : pieces (cells.flatMap (· ++ ['|'])) = cells ++ [[]] := by
    induction cells with
    | nil => rfl
    | cons cell rest ih =>
      obtain ⟨hcell, hlast⟩ := h cell List.mem_cons_self
      rw [List.flatMap_cons, List.append_assoc, List.singleton_append,
        pieces_append_pipe hcell hlast, ih fun c hc => h c (List.mem_cons_of_mem cell hc)]
      rfl
  rw [splitRow, trim_eq_self (isTrimmed_closed cells), withoutFirstPipe, hpieces,
    dropBlankEnd_append_nil]

end TableCalc.Document
