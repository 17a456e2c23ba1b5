import TableCalc.Proofs.Directive.Readers

/-!
How derivable texts start, and where readers stop. A reader takes as much as it can, so what it
reads of a derivable text depends on what stands behind it. Behind gaps nothing goes on, and no sign
that may follow an operand makes the operand longer.
-/

namespace TableCalc.Directive

open Text (Reads Leaves Stops stops_mono)

variable {cs rest : List Char} {p : Char → Bool}

/-- How a comment starts. -/
def commentStart : List Char := ['<', '!', '-', '-']

/-- What marks the comment of a directive. -/
def commentName : List Char := ['T', 'B', 'L', 'F', 'M', ':']

/-- The characters that can make a reference or a number longer. -/
def prolongs (c : Char) : Bool := c.isDigit || c == '$' || c == '.'

/-- The characters that an operand can start with. -/
def startsOperand (c : Char) : Bool :=
  c.isAlpha || c.isDigit || c == '@' || c == '$' || c == '(' || c == '-' || c == '"'

theorem prolongs_eq_false_iff {c : Char} :
    prolongs c = false ↔ c.isDigit = false ∧ c ≠ '$' ∧ c ≠ '.' := by
  simp [prolongs, and_assoc]

theorem stops_isDigit (h : Stops prolongs cs) : Stops Char.isDigit cs :=
  stops_mono (fun _ hc => (prolongs_eq_false_iff.mp hc).1) h

theorem isAlpha_of_isDigit {c : Char} (h : c.isDigit = true) : c.isAlpha = false := by
  have hdigit : c.toNat ≤ 57 := (Char.isDigit_iff_toNat.mp h).2
  have hupper (hc : c.isUpper = true) : 65 ≤ c.toNat :=
    UInt32.le_iff_toNat_le.mp (of_decide_eq_true hc).1
  have hlower (hc : c.isLower = true) : 97 ≤ c.toNat :=
    UInt32.le_iff_toNat_le.mp (of_decide_eq_true ((Bool.and_eq_true _ _).mp hc).1)
  rw [Bool.eq_false_iff]
  intro halpha
  rcases (Bool.or_eq_true _ _).mp halpha with hc | hc
  · exact absurd (hupper hc) (by omega)
  · exact absurd (hlower hc) (by omega)

namespace Grammar

theorem Gap.nil : Gap [] := fun _ hc => (List.not_mem_nil hc).elim

theorem Gap.append {g h : List Char} (hg : Gap g) (hh : Gap h) : Gap (g ++ h) :=
  List.forall_mem_append.mpr ⟨hg, hh⟩

theorem Spaced.append {sign spaced g : List Char} (h : Spaced sign spaced) (hg : Gap g) :
    Spaced sign (spaced ++ g) := by
  obtain ⟨hbefore, hafter⟩ := h
  rw [List.append_assoc]
  exact .mk hbefore (hafter.append hg)

end Grammar

theorem gap_append {g : List Char} (hg : Grammar.Gap g) (hcs : Stops isGap cs) :
    (gap (g ++ cs)).val = cs :=
  gap_eq_iff.mpr ⟨g, hg, rfl, hcs⟩

/-- Where neither gaps nor what is behind them satisfies `p`, nothing at the start does. -/
theorem stops_of_gap (hblank : p ' ' = false) (htab : p '\t' = false) (h : Stops p (gap cs).val) :
    Stops p cs := by
  obtain ⟨g, hg, hcs, _⟩ := gap_eq_iff.mp (rfl : (gap cs).val = _)
  cases g with
  | nil =>
    rw [hcs]
    exact h
  | cons c g =>
    rw [hcs]
    rcases hg c List.mem_cons_self with rfl | rfl
    · exact Text.stops_of_head hblank _
    · exact Text.stops_of_head htab _

theorem stops_gap_append {g : List Char} (hg : Grammar.Gap g) (hblank : p ' ' = false)
    (htab : p '\t' = false) (hcs : Stops p cs) : Stops p (g ++ cs) := by
  cases g with
  | nil => exact hcs
  | cons c g =>
    rcases hg c List.mem_cons_self with rfl | rfl
    · exact Text.stops_of_head hblank _
    · exact Text.stops_of_head htab _

theorem stops_spaced {c : Char} {more text : List Char} (h : Grammar.Spaced (c :: more) text)
    (hblank : p ' ' = false) (htab : p '\t' = false) (hc : p c = false) (rest : List Char) :
    Stops p (text ++ rest) := by
  obtain ⟨hbefore, hafter⟩ := h
  simp only [List.append_assoc, List.cons_append]
  exact stops_gap_append hbefore hblank htab (Text.stops_of_head hc _)

theorem digits_head {ds : List Char} (h : Grammar.Digits ds) :
    ∃ d more, ds = d :: more ∧ d.isDigit = true := by
  obtain ⟨hne, hall⟩ := h
  cases ds with
  | nil => exact absurd rfl hne
  | cons d more => exact ⟨d, more, rfl, hall d List.mem_cons_self⟩

theorem cell_head {text : List Char} {t : CellTree} (h : Grammar.Cell text t) :
    ∃ axis more, text = Axis.sigil axis :: more := by
  cases h with
  | row hr => exact ⟨.row, _, rfl⟩
  | both hr hc => exact ⟨.row, _, rfl⟩
  | column hc => exact ⟨.column, _, rfl⟩

theorem reference_head {text : List Char} {t : ReferenceTree} (h : Grammar.Reference text t) :
    ∃ axis more, text = Axis.sigil axis :: more := by
  cases h with
  | range hs hf =>
    obtain ⟨axis, more, rfl⟩ := cell_head hs
    exact ⟨axis, _, rfl⟩
  | cell hc => exact cell_head hc

theorem unsigned_head {text : List Char} (h : Grammar.Unsigned text) :
    ∃ d more, text = d :: more ∧ d.isDigit = true := by
  cases h with
  | whole hd => exact digits_head hd
  | fraction hd hf =>
    obtain ⟨d, more, rfl, hdigit⟩ := digits_head hd
    exact ⟨d, _, rfl, hdigit⟩

theorem number_head {text : List Char} (h : Grammar.Number text) :
    ∃ c more, text = c :: more ∧ (c = '-' ∨ c.isDigit = true) := by
  cases h with
  | plain h =>
    obtain ⟨d, more, htext, hdigit⟩ := unsigned_head h
    exact ⟨d, more, htext, .inr hdigit⟩
  | negative h => exact ⟨'-', _, rfl, .inl rfl⟩

theorem operand_head {text : List Char} {t : OperandTree} (h : Grammar.Operand text t) :
    ∃ c more, text = c :: more ∧ startsOperand c = true := by
  cases h with
  | conditional => exact ⟨'i', _, rfl, rfl⟩
  | call hname =>
    obtain ⟨hc, _⟩ := hname
    exact ⟨_, _, rfl, by simp [startsOperand, hc]⟩
  | reference hr =>
    obtain ⟨axis, more, htext⟩ := reference_head hr
    refine ⟨_, more, htext, ?_⟩
    cases axis with
    | row => rfl
    | column => rfl
  | group => exact ⟨'(', _, rfl, rfl⟩
  | number hn =>
    obtain ⟨c, more, htext, rfl | hc⟩ := number_head hn
    · exact ⟨'-', more, htext, rfl⟩
    · exact ⟨c, more, htext, by simp [startsOperand, hc]⟩
  | text => exact ⟨'"', _, rfl, rfl⟩

/-- An operand does not start with what no operand starts with. -/
theorem stops_operand {text : List Char} {t : OperandTree} (h : Grammar.Operand text t)
    (hp : ∀ c, startsOperand c = true → p c = false) (rest : List Char) :
    Stops p (text ++ rest) := by
  obtain ⟨c, more, rfl, hc⟩ := operand_head h
  exact Text.stops_of_head (hp c hc) _

theorem isGap_of_startsOperand (c : Char) (h : startsOperand c = true) : isGap c = false := by
  cases hgap : isGap c with
  | false => rfl
  | true =>
    rcases (isGap_iff c).mp hgap with rfl | rfl
    · cases h
    · cases h

end TableCalc.Directive
