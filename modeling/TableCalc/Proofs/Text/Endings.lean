import TableCalc.Proofs.Text.Lines

/-!
Line ends. Reading takes a carriage return in front of a line feed for a part of the line's end and
joining does not put it back, so a text comes back as it was just if it has no such pair. What joined
lines are is seen where only line feeds divide a text.
-/

namespace TableCalc.Text

/-- The text with a line feed alone at the end of each line. -/
def feedEndings : List Char → List Char
  | [] => []
  | '\r' :: '\n' :: rest => '\n' :: feedEndings rest
  | c :: rest => c :: feedEndings rest

/-- The lines of a text where nothing but line feeds ends a line. What stands after the last line
feed is a line unless it is empty. -/
def feedLines (cs : List Char) : List (List Char) :=
  let pieces := cs.splitOn '\n'
  if pieces.getLast? = some [] then pieces.dropLast else pieces

theorem join_cons_of_ne_nil (ending : Bool) (first : List Char) {rest : List (List Char)}
    (h : rest ≠ []) : join ending (first :: rest) = first ++ '\n' :: join ending rest := by
  obtain ⟨second, more, rfl⟩ := List.exists_cons_of_ne_nil h
  exact join_cons_cons ending first second more

/-- The lines of a text, joined, are the text with plain line ends. -/
theorem join_lines (cs : List Char) : join (endsWithNewline cs) (lines cs) = feedEndings cs := by
  fun_induction lines cs with
  | case1 => simp [join, endsWithNewline, feedEndings]
  | case2 rest ih =>
    rw [feedEndings, ← ih]
    · by_cases hrest : rest = []
      · subst hrest
        simp [join, endsWithNewline, lines]
      · rw [endsWithNewline_cons hrest, join_cons_of_ne_nil _ _ (lines_ne_nil hrest),
          List.nil_append]
    · simp
  | case3 rest ih =>
    rw [feedEndings, ← ih]
    by_cases hrest : rest = []
    · subst hrest
      simp [join, endsWithNewline, lines]
    · rw [endsWithNewline_cons (List.cons_ne_nil _ _), endsWithNewline_cons hrest,
        join_cons_of_ne_nil _ _ (lines_ne_nil hrest), List.nil_append]
  | case4 c rest hfeed hpair hlines ih =>
    have hrest : rest = [] := by_contra fun hne => lines_ne_nil hne hlines
    have hc : c ≠ '\n' := hfeed
    subst hrest
    simp [join, endsWithNewline, feedEndings, hc]
  | case5 c rest hfeed hpair line more hlines ih =>
    have hrest : rest ≠ [] := by
      rintro rfl
      cases hlines
    rw [hlines] at ih
    rw [feedEndings, ← ih, endsWithNewline_cons hrest]
    · cases more with
      | nil => simp [join]
      | cons second more => rw [join_cons_cons, join_cons_cons, List.cons_append]
    · exact hpair

/-- A text has plain line ends just if no carriage return stands in front of a line feed. -/
theorem feedEndings_eq_self_iff (cs : List Char) :
    feedEndings cs = cs ↔ ¬ ['\r', '\n'] <:+: cs := by
  fun_induction feedEndings cs with
  | case1 => simp
  | case2 rest ih =>
    constructor
    · intro h
      simp at h
    · intro h
      exact absurd ⟨[], rest, rfl⟩ h
  | case3 c rest hpair ih =>
    have hfirst : ¬ ['\r', '\n'] <+: c :: rest := by
      rintro ⟨more, hmore⟩
      simp only [List.cons_append, List.nil_append, List.cons.injEq] at hmore
      exact hpair more hmore.1.symm hmore.2.symm
    rw [List.infix_cons_iff, List.cons.injEq]
    simp [ih, hfirst]

section Join

variable {ending : Bool} {ls : List (List Char)} (hlines : ∀ line ∈ ls, '\n' ∉ line)
  (hopen : ending = false → ls.getLast? ≠ some []) (hclosed : ending = true → ls ≠ [])

include hlines hopen hclosed

theorem feedLines_join : feedLines (join ending ls) = ls := by
  unfold feedLines
  by_cases hnil : ls = []
  · cases ending with
    | true => exact absurd hnil (hclosed rfl)
    | false =>
      subst hnil
      simp [join]
  · cases ending with
    | true =>
      have hjoin : join true ls = ['\n'].intercalate (ls ++ [[]]) := by
        simpa [join] using (join_append hnil (List.cons_ne_nil [] []) false).symm
      have hpieces : ∀ piece ∈ ls ++ [[]], '\n' ∉ piece := by
        simpa [or_imp, forall_and] using hlines
      rw [hjoin, List.splitOn_intercalate '\n' hpieces (by simp)]
      simp
    | false =>
      have hjoin : join false ls = ['\n'].intercalate ls := by simp [join]
      rw [hjoin, List.splitOn_intercalate '\n' hlines hnil]
      simp [hopen rfl]

end Join

section Count

variable {ending : Bool} {ls : List (List Char)} {cs : List Char}

theorem length_splitOn (cs : List Char) : (cs.splitOn '\n').length = cs.count '\n' + 1 := by
  induction cs with
  | nil => rfl
  | cons c cs ih =>
    rw [List.splitOn_cons_eq_if_modifyHead]
    by_cases hc : c = '\n'
    · simp [hc, ih]
    · simp [hc, ih]

theorem length_feedLines_of_ends (h : endsWithNewline cs = true) :
    (feedLines cs).length = cs.count '\n' := by
  obtain ⟨init, rfl⟩ := List.getLast?_eq_some_iff.mp (beq_iff_eq.mp h)
  have hlength := length_splitOn (init ++ ['\n'])
  have hlast : ((init ++ ['\n']).splitOn '\n').getLast? = some [] := by
    rw [List.splitOn_append_cons_self, List.splitOn_nil, List.getLast?_concat]
  rw [feedLines, if_pos hlast, List.length_dropLast, hlength]
  omega

theorem length_feedLines_of_not_ends (hne : cs ≠ []) (h : endsWithNewline cs = false) :
    (feedLines cs).length = cs.count '\n' + 1 := by
  have hlast : (cs.splitOn '\n').getLast? ≠ some [] := by
    intro hlast
    obtain ⟨pieces, hpieces⟩ := List.getLast?_eq_some_iff.mp hlast
    have hjoin : join false (pieces ++ [[]]) = cs := by
      rw [← hpieces, join]
      simp [List.intercalate_splitOn]
    by_cases hnil : pieces = []
    · rw [hnil] at hjoin
      exact hne hjoin.symm
    · rw [join_append hnil (List.cons_ne_nil _ _)] at hjoin
      rw [← hjoin] at h
      simp [join, endsWithNewline] at h
  rw [feedLines, if_neg hlast, length_splitOn]

theorem count_join (ending : Bool) (h : ls ≠ []) :
    (join ending ls).count '\n' + 1 =
      ls.flatten.count '\n' + ls.length + if ending then 1 else 0 := by
  induction ls with
  | nil => exact absurd rfl h
  | cons first rest ih =>
    by_cases hrest : rest = []
    · subst hrest
      cases ending <;> simp [join]
    · rw [join_cons_of_ne_nil _ _ hrest, List.flatten_cons, List.count_append, List.count_append,
        List.count_cons_self]
      have := ih hrest
      simp only [List.length_cons]
      omega

/-- Joined lines have line feeds of their own just if the text has more lines. -/
theorem not_mem_feed_of_length (hlength : (feedLines (join ending ls)).length = ls.length)
    (hending : endsWithNewline (join ending ls) = ending) : ∀ line ∈ ls, '\n' ∉ line := by
  by_cases hnil : ls = []
  · rw [hnil]
    exact List.forall_mem_nil _
  have hcount := count_join ending hnil
  have hpositive : 0 < ls.length := List.length_pos_iff.mpr hnil
  have hzero : ls.flatten.count '\n' = 0 := by
    cases ending with
    | true =>
      rw [length_feedLines_of_ends hending] at hlength
      simp only [if_true] at hcount
      omega
    | false =>
      simp only [Bool.false_eq_true, if_false] at hcount
      by_cases htext : join false ls = []
      · rw [htext, List.count_nil] at hcount
        omega
      · rw [length_feedLines_of_not_ends htext hending] at hlength
        omega
  intro line hline hmem
  exact List.count_eq_zero.mp hzero (List.mem_flatten.mpr ⟨line, hline, hmem⟩)

end Count

end TableCalc.Text
