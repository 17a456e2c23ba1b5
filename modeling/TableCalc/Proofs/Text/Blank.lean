import Mathlib.Data.List.DropRight
import TableCalc.Proofs.Text.Reading
import TableCalc.Text.Basic

/-!
Trimming. A text is blanks, what is left of it once it is trimmed, and blanks; and what is left has
no blank at either end.
-/

namespace TableCalc.Text

theorem trimEnd_eq_rdropWhile (cs : List Char) : trimEnd cs = cs.rdropWhile isBlank := rfl

theorem isBlank_of_isDigit {c : Char} (h : c.isDigit = true) : isBlank c = false := by
  have hlow : 48 ≤ c.toNat := (Char.isDigit_iff_toNat.mp h).1
  have hhigh : c.toNat ≤ 57 := (Char.isDigit_iff_toNat.mp h).2
  simp only [isBlank, Bool.or_eq_false_iff, Bool.and_eq_false_iff, decide_eq_false_iff_not,
    beq_eq_false_iff_ne]
  omega

theorem trim_eq_nil_iff (cs : List Char) : trim cs = [] ↔ ∀ c ∈ cs, isBlank c = true := by
  rw [trim, trimEnd_eq_rdropWhile, List.rdropWhile_eq_nil_iff, trimStart,
    ← List.dropWhile_eq_nil_iff, List.dropWhile_idempotent, List.dropWhile_eq_nil_iff]

theorem isBlankText_iff (s : String) : isBlankText s = true ↔ trimmed s = "" := by
  rw [isBlankText, List.all_eq_true, trimmed, ← trim_eq_nil_iff, String.ofList_eq_empty_iff]

theorem head?_trim (cs : List Char) : (trim cs).head? = (trimStart cs).head? := by
  cases htrim : trim cs with
  | nil =>
    rw [trim_eq_nil_iff, ← List.dropWhile_eq_nil_iff] at htrim
    rw [trimStart, htrim]
  | cons c rest =>
    obtain ⟨after, hafter⟩ := List.rdropWhile_prefix isBlank (trimStart cs)
    rw [← hafter, ← trimEnd_eq_rdropWhile, ← trim, htrim]
    rfl

/-- A text without blanks at its ends. -/
structure IsTrimmed (cs : List Char) : Prop where
  head : Stops isBlank cs
  last : Stops isBlank cs.reverse

theorem isTrimmed_trim (cs : List Char) : IsTrimmed (trim cs) where
  head c hc := by
    rw [head?_trim] at hc
    exact stops_dropWhile isBlank cs c hc
  last := by
    rw [trim, trimEnd, List.reverse_reverse]
    exact stops_dropWhile isBlank _

theorem isTrimmed_of_visible {cs : List Char} (h : ∀ c ∈ cs, isBlank c = false) :
    IsTrimmed cs where
  head c hc := h c (List.mem_of_mem_head? hc)
  last c hc := h c (List.mem_reverse.mp (List.mem_of_mem_head? hc))

/-- Only the two ends of a text matter. -/
theorem IsTrimmed.around {front back : List Char} (hfront : IsTrimmed front)
    (hback : IsTrimmed back) (hfrontNe : front ≠ []) (hbackNe : back ≠ []) (middle : List Char) :
    IsTrimmed (front ++ (middle ++ back)) where
  head c hc := by
    rw [List.head?_append_of_ne_nil _ hfrontNe] at hc
    exact hfront.head c hc
  last c hc := by
    rw [List.reverse_append, List.reverse_append, List.append_assoc,
      List.head?_append_of_ne_nil _ (List.reverse_ne_nil_iff.mpr hbackNe)] at hc
    exact hback.last c hc

/-- Blanks around a text are what trimming takes away. -/
theorem trim_eq_of_parts {before cs after : List Char} (hcs : IsTrimmed cs)
    (hbefore : ∀ c ∈ before, isBlank c = true) (hafter : ∀ c ∈ after, isBlank c = true) :
    trim (before ++ cs ++ after) = cs := by
  cases cs with
  | nil =>
    rw [trim_eq_nil_iff]
    intro c hc
    rw [List.append_nil, List.mem_append] at hc
    exact hc.elim (hbefore c) (hafter c)
  | cons d ds =>
    have hd : Stops isBlank (d :: ds ++ after) := stops_of_head (hcs.head d rfl) _
    rw [trim, trimStart, List.append_assoc, dropWhile_append hbefore hd, trimEnd,
      List.reverse_append, dropWhile_append (by simpa using hafter) hcs.last, List.reverse_reverse]

theorem trim_eq_self {cs : List Char} (h : IsTrimmed cs) : trim cs = cs := by
  have hnil : ∀ c ∈ ([] : List Char), isBlank c = true := by simp
  simpa using trim_eq_of_parts h hnil hnil

theorem exists_trim (cs : List Char) :
    ∃ before after, cs = before ++ trim cs ++ after ∧ (∀ c ∈ before, isBlank c = true) ∧
      ∀ c ∈ after, isBlank c = true := by
  refine ⟨cs.takeWhile isBlank, (trimStart cs).rtakeWhile isBlank, ?_, ?_, ?_⟩
  · rw [List.append_assoc, trim, trimEnd_eq_rdropWhile, List.rdropWhile_append_rtakeWhile,
      trimStart, List.takeWhile_append_dropWhile]
  · exact List.all_eq_true.mp List.all_takeWhile
  · intro c hc
    exact List.mem_rtakeWhile_imp hc

theorem trim_append {before cs after : List Char} (hbefore : ∀ c ∈ before, isBlank c = true)
    (hafter : ∀ c ∈ after, isBlank c = true) : trim (before ++ cs ++ after) = trim cs := by
  obtain ⟨before', after', hcs, hbefore', hafter'⟩ := exists_trim cs
  have hparts : before ++ cs ++ after = (before ++ before') ++ trim cs ++ (after' ++ after) := by
    nth_rewrite 1 [hcs]
    simp
  rw [hparts]
  refine trim_eq_of_parts (isTrimmed_trim cs) ?_ ?_
  · exact fun c hc => (List.mem_append.mp hc).elim (hbefore c) (hbefore' c)
  · exact fun c hc => (List.mem_append.mp hc).elim (hafter' c) (hafter c)

theorem mem_of_mem_trim {cs : List Char} {c : Char} (h : c ∈ trim cs) : c ∈ cs := by
  obtain ⟨before, after, hcs, _, _⟩ := exists_trim cs
  rw [hcs]
  simp [h]

/-- Trimming keeps what is not blank. -/
theorem mem_trim_of_mem {cs : List Char} {c : Char} (h : c ∈ cs) (hc : isBlank c = false) :
    c ∈ trim cs := by
  obtain ⟨before, after, hcs, hbefore, hafter⟩ := exists_trim cs
  rw [hcs, List.mem_append, List.mem_append] at h
  rcases h with (hleft | hmiddle) | hright
  · simp [hbefore c hleft] at hc
  · exact hmiddle
  · simp [hafter c hright] at hc

end TableCalc.Text
