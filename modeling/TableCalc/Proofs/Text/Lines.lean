import Mathlib.Data.List.Basic
import TableCalc.Proofs.Text.Blank
import TableCalc.Text.Basic

/-!
Lines and texts. Joining lines gives a text that has just these lines, as long as they contain no
line ends and the last one shows in the text.
-/

namespace TableCalc.Text

/-- A text that can be a line: no line feed is in it, and no carriage return that would be taken for
a part of the line's end stands at its end. -/
def IsLine (cs : List Char) : Prop := '\n' ∉ cs ∧ cs.getLast? ≠ some '\r'

theorem IsLine.tail {c : Char} {cs : List Char} (h : IsLine (c :: cs)) : IsLine cs := by
  refine ⟨fun hmem => h.1 (List.mem_cons_of_mem c hmem), fun hlast => h.2 ?_⟩
  rw [List.getLast?_cons, hlast]
  rfl

theorem IsTrimmed.isLine {cs : List Char} (h : IsTrimmed cs) (hfeed : '\n' ∉ cs) : IsLine cs := by
  refine ⟨hfeed, fun hlast => ?_⟩
  have hblank := h.last '\r' (by rwa [List.head?_reverse])
  exact absurd hblank (by decide)

/-- A character that ends no line is the first one of the first line. -/
theorem lines_cons {c : Char} {cs : List Char} (hc : c ≠ '\n')
    (hreturn : c = '\r' → cs.head? ≠ some '\n') :
    lines (c :: cs) =
      match lines cs with
      | [] => [[c]]
      | line :: more => (c :: line) :: more := by
  generalize htext : c :: cs = text
  fun_cases lines text with
  | case1 => cases htext
  | case2 =>
    cases htext
    exact absurd rfl hc
  | case3 =>
    cases htext
    exact absurd rfl (hreturn rfl)
  | case4 _ _ _ _ hlines =>
    cases htext
    rw [hlines]
  | case5 _ _ _ _ _ _ hlines =>
    cases htext
    rw [hlines]

theorem lines_append_newline {line : List Char} (h : IsLine line) (rest : List Char) :
    lines (line ++ '\n' :: rest) = line :: lines rest := by
  induction line with
  | nil => rfl
  | cons c cs ih =>
    have hc : c ≠ '\n' := fun heq => h.1 (heq ▸ List.mem_cons_self)
    rw [List.cons_append, lines_cons hc, ih h.tail]
    rintro rfl hhead
    cases cs with
    | nil => exact h.2 rfl
    | cons d ds =>
      cases hhead
      exact h.1 (List.mem_cons_of_mem _ List.mem_cons_self)

theorem lines_eq_singleton {line : List Char} (h : '\n' ∉ line) (hne : line ≠ []) :
    lines line = [line] := by
  induction line with
  | nil => exact absurd rfl hne
  | cons c cs ih =>
    have hcs : '\n' ∉ cs := fun hmem => h (List.mem_cons_of_mem c hmem)
    rw [lines_cons fun heq => h (heq ▸ List.mem_cons_self)]
    · by_cases hnil : cs = []
      · subst hnil
        rfl
      · rw [ih hcs hnil]
    · intro _ hhead
      exact hcs (List.mem_of_mem_head? hhead)

theorem lines_ne_nil {cs : List Char} (h : cs ≠ []) : lines cs ≠ [] := by
  fun_induction lines cs with
  | case1 => exact absurd rfl h
  | case2 => exact List.cons_ne_nil _ _
  | case3 => exact List.cons_ne_nil _ _
  | case4 => exact List.cons_ne_nil _ _
  | case5 => exact List.cons_ne_nil _ _

theorem lines_ne_nil_of_ends {cs : List Char} (h : endsWithNewline cs = true) : lines cs ≠ [] := by
  refine lines_ne_nil ?_
  rintro rfl
  cases h

/-- The characters of lines are those of the text, without the line feeds. -/
theorem mem_of_mem_lines {cs line : List Char} (hline : line ∈ lines cs) {c : Char}
    (hc : c ∈ line) : c ∈ cs ∧ c ≠ '\n' := by
  fun_induction lines cs generalizing line with
  | case1 => cases hline
  | case2 rest ih =>
    rcases List.mem_cons.mp hline with rfl | hmore
    · cases hc
    · exact (ih hmore hc).imp_left (List.mem_cons_of_mem _)
  | case3 rest ih =>
    rcases List.mem_cons.mp hline with rfl | hmore
    · cases hc
    · exact (ih hmore hc).imp_left fun h => List.mem_cons_of_mem _ (List.mem_cons_of_mem _ h)
  | case4 d rest hd _ _ _ =>
    rw [List.mem_singleton.mp hline, List.mem_singleton] at hc
    subst hc
    exact ⟨List.mem_cons_self, hd⟩
  | case5 d rest hd _ first more hlines ih =>
    rw [hlines] at ih
    rcases List.mem_cons.mp hline with rfl | hmore
    · rcases List.mem_cons.mp hc with rfl | hfirst
      · exact ⟨List.mem_cons_self, hd⟩
      · exact (ih List.mem_cons_self hfirst).imp_left (List.mem_cons_of_mem _)
    · exact (ih (List.mem_cons_of_mem _ hmore) hc).imp_left (List.mem_cons_of_mem _)

theorem endsWithNewline_cons {c : Char} {cs : List Char} (h : cs ≠ []) :
    endsWithNewline (c :: cs) = endsWithNewline cs := by
  rw [endsWithNewline, endsWithNewline, List.getLast?_cons_of_ne_nil h]

/-- A text that does not end with a line feed shows its last line. -/
theorem getLast?_lines {cs : List Char} (h : endsWithNewline cs = false) :
    (lines cs).getLast? ≠ some [] := by
  fun_induction lines cs with
  | case1 => simp
  | case2 rest ih =>
    have hrest : rest ≠ [] := by
      rintro rfl
      cases h
    rw [endsWithNewline_cons hrest] at h
    rw [List.getLast?_cons_of_ne_nil (lines_ne_nil hrest)]
    exact ih h
  | case3 rest ih =>
    have hrest : rest ≠ [] := by
      rintro rfl
      cases h
    rw [endsWithNewline_cons (List.cons_ne_nil _ _), endsWithNewline_cons hrest] at h
    rw [List.getLast?_cons_of_ne_nil (lines_ne_nil hrest)]
    exact ih h
  | case4 => simp
  | case5 c rest _ _ line more hlines ih =>
    rw [hlines] at ih
    have hrest : rest ≠ [] := by
      rintro rfl
      cases hlines
    rw [endsWithNewline_cons hrest] at h
    cases more with
    | nil => simp
    | cons second more => simpa using ih h

/-- Behind a line feed, the lines of a text are those that they are on their own. -/
theorem lines_append {cs : List Char} (h : endsWithNewline cs = true) (rest : List Char) :
    lines (cs ++ rest) = lines cs ++ lines rest := by
  fun_induction lines cs with
  | case1 => cases h
  | case2 cs ih =>
    have hlines : lines (cs ++ rest) = lines cs ++ lines rest := by
      by_cases hcs : cs = []
      · rw [hcs]
        rfl
      · exact ih (by rwa [endsWithNewline_cons hcs] at h)
    rw [List.cons_append, lines, hlines, List.cons_append]
  | case3 cs ih =>
    have hlines : lines (cs ++ rest) = lines cs ++ lines rest := by
      by_cases hcs : cs = []
      · rw [hcs]
        rfl
      · rw [endsWithNewline_cons (List.cons_ne_nil _ _), endsWithNewline_cons hcs] at h
        exact ih h
    rw [List.cons_append, List.cons_append, lines, hlines, List.cons_append]
  | case4 c cs hc _ hlines _ =>
    have hcs : cs = [] := by_contra fun hne => lines_ne_nil hne hlines
    rw [hcs, endsWithNewline, List.getLast?_singleton, beq_iff_eq, Option.some.injEq] at h
    exact absurd h hc
  | case5 c cs hc hpair line more hlines ih =>
    have hcs : cs ≠ [] := by
      rintro rfl
      cases hlines
    rw [endsWithNewline_cons hcs] at h
    rw [List.cons_append, lines_cons hc, ih h, hlines]
    · rfl
    · intro hreturn hhead
      rw [List.head?_append_of_ne_nil _ hcs] at hhead
      obtain ⟨after, hafter⟩ := List.head?_eq_some_iff.mp hhead
      exact hpair after hreturn hafter

/-- A line feed behind the last line ends that line. -/
theorem lines_concat_newline {cs : List Char} (hne : cs ≠ []) (h : endsWithNewline cs = false)
    (hreturn : cs.getLast? ≠ some '\r') : lines (cs ++ ['\n']) = lines cs := by
  fun_induction lines cs with
  | case1 => exact absurd rfl hne
  | case2 cs ih =>
    have hcs : cs ≠ [] := by
      rintro rfl
      cases h
    rw [endsWithNewline_cons hcs] at h
    rw [List.getLast?_cons_of_ne_nil hcs] at hreturn
    rw [List.cons_append, lines, ih hcs h hreturn]
  | case3 cs ih =>
    have hcs : cs ≠ [] := by
      rintro rfl
      cases h
    rw [endsWithNewline_cons (List.cons_ne_nil _ _), endsWithNewline_cons hcs] at h
    rw [List.getLast?_cons_of_ne_nil (List.cons_ne_nil _ _),
      List.getLast?_cons_of_ne_nil hcs] at hreturn
    rw [List.cons_append, List.cons_append, lines, ih hcs h hreturn]
  | case4 c cs hc _ hlines _ =>
    have hcs : cs = [] := by_contra fun hnil => lines_ne_nil hnil hlines
    subst hcs
    have hreturn : c ≠ '\r' := by simpa using hreturn
    rw [List.singleton_append, lines_cons hc fun heq => absurd heq hreturn]
    rfl
  | case5 c cs hc hpair line more hlines ih =>
    have hcs : cs ≠ [] := by
      rintro rfl
      cases hlines
    rw [endsWithNewline_cons hcs] at h
    rw [List.getLast?_cons_of_ne_nil hcs] at hreturn
    rw [List.cons_append, lines_cons hc, ih hcs h hreturn, hlines]
    intro hc hhead
    rw [List.head?_append_of_ne_nil _ hcs] at hhead
    obtain ⟨after, hafter⟩ := List.head?_eq_some_iff.mp hhead
    exact hpair after hc hafter

/-- The text of some lines, with a line feed at its end or without one. -/
def join (ending : Bool) (ls : List (List Char)) : List Char :=
  List.intercalate ['\n'] ls ++ (if ending then ['\n'] else [])

theorem join_cons_cons (ending : Bool) (first second : List Char) (rest : List (List Char)) :
    join ending (first :: second :: rest) = first ++ '\n' :: join ending (second :: rest) := by
  simp [join, List.intercalate_cons_cons]

/-- The text of some lines is that of the first ones, each ended by a line feed, and of the other
ones. -/
theorem join_append {ls more : List (List Char)} (hls : ls ≠ []) (hmore : more ≠ [])
    (ending : Bool) : join ending (ls ++ more) = join true ls ++ join ending more := by
  induction ls with
  | nil => exact absurd rfl hls
  | cons first rest ih =>
    cases rest with
    | nil =>
      obtain ⟨next, others, rfl⟩ := List.exists_cons_of_ne_nil hmore
      rw [List.singleton_append, join_cons_cons]
      simp [join]
    | cons second rest =>
      rw [List.cons_append, List.cons_append, join_cons_cons, ← List.cons_append,
        ih (List.cons_ne_nil _ _), join_cons_cons]
      simp

theorem getLast?_join (init : List (List Char)) {last : List Char} (hlast : last ≠ []) :
    (join false (init ++ [last])).getLast? = last.getLast? := by
  induction init with
  | nil => simp [join]
  | cons first rest ih =>
    obtain ⟨second, more, hrest⟩ := List.exists_cons_of_ne_nil (l := rest ++ [last]) (by simp)
    rw [List.cons_append, hrest, join_cons_cons, ← hrest]
    rw [List.getLast?_append, List.getLast?_cons, ih, List.getLast?_eq_getLast_of_ne_nil hlast]
    rfl

theorem endsWithNewline_join {ending : Bool} {ls : List (List Char)}
    (hlines : ∀ line ∈ ls, '\n' ∉ line) (hopen : ending = false → ls.getLast? ≠ some []) :
    endsWithNewline (join ending ls) = ending := by
  cases ending with
  | true => simp [endsWithNewline, join]
  | false =>
    cases hlast : ls.getLast? with
    | none => rw [List.getLast?_eq_none_iff.mp hlast]; rfl
    | some last =>
      obtain ⟨init, rfl⟩ := List.getLast?_eq_some_iff.mp hlast
      have hline := hlines last (by simp)
      have hne : last ≠ [] := by simpa using hopen rfl
      rw [endsWithNewline, getLast?_join init hne, beq_eq_false_iff_ne]
      exact fun heq => hline (List.mem_of_getLast? heq)

/-- Joined lines are the lines of their text. -/
theorem lines_join {ending : Bool} {ls : List (List Char)} (hlines : ∀ line ∈ ls, IsLine line)
    (hopen : ending = false → ls.getLast? ≠ some []) (hclosed : ending = true → ls ≠ []) :
    lines (join ending ls) = ls := by
  induction ls with
  | nil =>
    cases ending with
    | false => rfl
    | true => exact absurd rfl (hclosed rfl)
  | cons first rest ih =>
    have hfirst := hlines first List.mem_cons_self
    cases rest with
    | nil =>
      cases ending with
      | false =>
        have hne : first ≠ [] := fun heq => hopen rfl (by rw [heq]; rfl)
        simpa [join] using lines_eq_singleton hfirst.1 hne
      | true => simpa [join, lines] using lines_append_newline hfirst []
    | cons second rest =>
      rw [join_cons_cons, lines_append_newline hfirst]
      rw [ih (fun line hline => hlines line (List.mem_cons_of_mem first hline))
        (by simpa using hopen) (fun _ => List.cons_ne_nil _ _)]

end TableCalc.Text
