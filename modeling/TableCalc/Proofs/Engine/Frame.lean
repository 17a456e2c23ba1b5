import TableCalc.Proofs.Engine.Run
import TableCalc.Proofs.Text.Blank

/-!
What a run of formulas does to a table. `Table.Written` says it for the texts of the cells and
`Table.Stretched` for the lengths of the rows; one write has both, and both compose. The size of the
table never changes, hence the cells of every target are those of the table at the start.
-/

namespace TableCalc

/-- A table before and after some cells inside it were written, each at least once. -/
structure Table.Written (cells : List Position) (before after : Table) : Prop where
  extent : after.extent = before.extent
  grown : ∀ i, (before.row i).length ≤ (after.row i).length
  kept : ∀ p, p ∉ cells → after.text p = before.text p
  filled : ∀ p ∈ cells, Text.trimmed (after.text p) ≠ ""

namespace Table.Written

theorem nothing (t : Table) : Written [] t t where
  extent := rfl
  grown _ := Nat.le_refl _
  kept _ _ := rfl
  filled _ hp := by cases hp

theorem one {t : Table} {p : Position} {text : String} (hp : t.extent.Contains p)
    (htext : Text.trimmed text ≠ "") : Written [p] t (t.set p text) where
  extent := extent_set hp text
  grown i := by
    rw [length_row_set hp]
    split
    · exact Nat.le_max_left _ _
    · exact Nat.le_refl _
  kept q hq := by
    rw [text_set hp, if_neg (List.ne_of_not_mem_cons hq)]
  filled q hq := by
    rw [text_set hp, if_pos (List.mem_singleton.mp hq)]
    exact htext

/-- A later write may go over an earlier one; what it leaves is not blank either. -/
theorem append {first second : List Position} {a b c : Table} (h₁ : Written first a b)
    (h₂ : Written second b c) : Written (first ++ second) a c where
  extent := h₂.extent.trans h₁.extent
  grown i := Nat.le_trans (h₁.grown i) (h₂.grown i)
  kept p hp := by
    rw [List.mem_append, not_or] at hp
    exact (h₂.kept p hp.2).trans (h₁.kept p hp.1)
  filled p hp := by
    by_cases hsecond : p ∈ second
    · exact h₂.filled p hsecond
    · rw [h₂.kept p hsecond]
      exact h₁.filled p ((List.mem_append.mp hp).resolve_right hsecond)

end Table.Written

/-- A table before and after some cells inside it were written: each row is as long as it was, or as
long as the cells that were written in it need. -/
def Table.Stretched (cells : List Position) (before after : Table) : Prop :=
  ∀ i n, (after.row i).length ≤ n ↔
    (before.row i).length ≤ n ∧ ∀ p ∈ cells, p.row = i → p.column < n

namespace Table.Stretched

theorem nothing (t : Table) : Stretched [] t t := by
  intro i n
  simp

theorem one {t : Table} {p : Position} (hp : t.extent.Contains p) (text : String) :
    Stretched [p] t (t.set p text) := by
  intro i n
  rw [length_row_set hp]
  simp only [List.mem_singleton, forall_eq]
  split
  · next hi =>
    rw [Nat.max_le, hi, Nat.succ_le_iff]
    simp
  · next hi => simp [Ne.symm hi]

theorem append {first second : List Position} {a b c : Table} (h₁ : Stretched first a b)
    (h₂ : Stretched second b c) : Stretched (first ++ second) a c := by
  intro i n
  rw [h₂ i n, h₁ i n, and_assoc]
  simp only [List.mem_append, or_imp, forall_and]

/-- Row lengths depend on which cells were written, not on the order or on what was written. -/
theorem length_row_eq {first second : List Position} {before after other : Table}
    (hcells : ∀ p, p ∈ first ↔ p ∈ second) (h₁ : Stretched first before after)
    (h₂ : Stretched second before other) (i : Nat) :
    (after.row i).length = (other.row i).length := by
  have hlengths (n : Nat) : (after.row i).length ≤ n ↔ (other.row i).length ≤ n := by
    rw [h₁ i n, h₂ i n]
    simp only [hcells]
  exact Nat.le_antisymm ((hlengths _).mpr (Nat.le_refl _)) ((hlengths _).mp (Nat.le_refl _))

end Table.Stretched

/-- Whatever a value is, the text that is written for it is not blank: a blank single cell is
written as zero, and a list has its brackets. -/
theorem trimmed_writtenText_ne (display : Option Display) (value : Grid) :
    Text.trimmed (writtenText display value) ≠ "" := by
  rw [Ne, ← Text.isBlankText_iff, writtenText]
  generalize display.elim value (·.apply value) = shown
  split
  · decide
  · next hshown =>
    rw [Grid.render]
    split
    · next hcell => simpa [hcell] using hshown
    · have hbracket : Text.isBlank '[' = false := by decide
      simp [Text.isBlankText, String.toList_append, hbracket]

namespace Engine

variable {engine : Engine} {formula : Formula} {before after : Table}

theorem writeCell_written {p : Position} (hp : before.extent.Contains p)
    (h : engine.writeCell formula before p = .ok after) : Table.Written [p] before after := by
  rw [writeCell] at h
  obtain ⟨value, _, h⟩ := bind_eq_ok_iff.mp h
  cases h
  exact .one hp (trimmed_writtenText_ne _ _)

theorem writeCell_stretched {p : Position} (hp : before.extent.Contains p)
    (h : engine.writeCell formula before p = .ok after) : Table.Stretched [p] before after := by
  rw [writeCell] at h
  obtain ⟨value, _, h⟩ := bind_eq_ok_iff.mp h
  cases h
  exact .one hp _

theorem apply_written {formulas : List Formula} (h : engine.apply formulas before = .ok after) :
    (∀ formula ∈ formulas, ∃ cells, formula.target.targetCells before.extent = .ok cells) ∧
      Table.Written (targetsOf formulas before.extent) before after := by
  obtain ⟨htargets, hwritten, _⟩ := apply_run Table.Written.nothing Table.Written.append
    (fun _ hp ht hwrite =>
      writeCell_written (ht ▸ Formula.contains_of_mem_targets hp) hwrite) h
  exact ⟨htargets, hwritten⟩

theorem apply_stretched {formulas : List Formula} (h : engine.apply formulas before = .ok after) :
    Table.Stretched (targetsOf formulas before.extent) before after := by
  obtain ⟨_, hstretched, _⟩ := apply_run Table.Stretched.nothing Table.Stretched.append
    (fun _ hp ht hwrite =>
      writeCell_stretched (ht ▸ Formula.contains_of_mem_targets hp) hwrite) h
  exact hstretched

theorem applyFormula_written (h : engine.applyFormula before formula = .ok after) :
    Table.Written (formula.targets before.extent) before after := by
  rw [← apply_singleton] at h
  rw [← targetsOf_singleton]
  exact (apply_written h).2

theorem applyFormula_stretched (h : engine.applyFormula before formula = .ok after) :
    Table.Stretched (formula.targets before.extent) before after := by
  rw [← apply_singleton] at h
  rw [← targetsOf_singleton]
  exact apply_stretched h

theorem evaluate_extent {directives : List String}
    (h : engine.evaluate directives before = .ok after) : after.extent = before.extent := by
  obtain ⟨formulas, _, happly⟩ := bind_eq_ok_iff.mp h
  exact (apply_written happly).2.extent

/-- After a successful evaluation the table has the size that it had, and no row is shorter than it
was or longer than the table is wide. A cell that no formula targets reads as before, also where a
row was padded, and a cell that some formula targets does not read as blank. Which cells are
targets can be told from the table at the start. -/
theorem evaluate_frame {directives : List String}
    (h : engine.evaluate directives before = .ok after) :
    after.extent = before.extent ∧
    (∀ i, (before.row i).length ≤ (after.row i).length ∧
      (after.row i).length ≤ before.extent.columns) ∧
    ∃ formulas, Formula.ofDirectives engine.functions directives = .ok formulas ∧
      (∀ p, (∀ formula ∈ formulas, ∀ cells,
          formula.target.targetCells before.extent = .ok cells → p ∉ cells) →
        after.text p = before.text p) ∧
      ∀ formula ∈ formulas, ∃ cells,
        formula.target.targetCells before.extent = .ok cells ∧
        ∀ p ∈ cells, Text.trimmed (after.text p) ≠ "" := by
  rw [evaluate] at h
  obtain ⟨formulas, hformulas, h⟩ := bind_eq_ok_iff.mp h
  obtain ⟨htargets, hwritten⟩ := apply_written h
  refine ⟨hwritten.extent, ?_, formulas, hformulas, ?_, ?_⟩
  · intro i
    have hwide := after.length_row_le i
    rw [hwritten.extent] at hwide
    exact ⟨hwritten.grown i, hwide⟩
  · intro p hp
    apply hwritten.kept
    intro hmem
    obtain ⟨formula, hformula, cells, hcells, hpcells⟩ := mem_targetsOf.mp hmem
    exact hp formula hformula cells hcells hpcells
  · intro formula hformula
    obtain ⟨cells, hcells⟩ := htargets formula hformula
    exact ⟨cells, hcells, fun p hp =>
      hwritten.filled p (mem_targetsOf.mpr ⟨formula, hformula, cells, hcells, hp⟩)⟩

/-- Rows of three lengths: one is padded for a blank that is written as zero and for a list, and one
stays shorter than the table is wide. -/
theorem evaluate_frame_ragged :
    let before : Table := ⟨[["A", "B", "C"], ["1"], []]⟩
    let after : Table := ⟨[["A", "B", "C"], ["1", "1"], ["", "0", "[0]"]]⟩
    standard.evaluate ["$2=$1::@>$3=$1..$2"] before = .ok after ∧
    after.extent = before.extent ∧
    (∀ i, (before.row i).length ≤ (after.row i).length ∧
      (after.row i).length ≤ before.extent.columns) ∧
    ∃ formulas, Formula.ofDirectives standard.functions ["$2=$1::@>$3=$1..$2"] = .ok formulas ∧
      (∀ p, (∀ formula ∈ formulas, ∀ cells,
          formula.target.targetCells before.extent = .ok cells → p ∉ cells) →
        after.text p = before.text p) ∧
      ∀ formula ∈ formulas, ∃ cells,
        formula.target.targetCells before.extent = .ok cells ∧
        ∀ p ∈ cells, Text.trimmed (after.text p) ≠ "" := by
  intro before after
  have h : standard.evaluate ["$2=$1::@>$3=$1..$2"] before = .ok after := by decide +kernel
  exact ⟨h, evaluate_frame h⟩

end Engine

end TableCalc
