import TableCalc.Proofs.Engine.Dependence

/-!
Reordering formulas. Two formulas of which neither writes what the other one reads or writes give
the same table in either order, and so do the formulas of a list in any order. Only the error may
depend on the order, because the first formula that fails decides.
-/

namespace TableCalc

/-- On tables of the given size, a formula writes no cell that the other one writes or reads. -/
def Formula.Spares (extent : Extent) (formula other : Formula) : Prop :=
  ∀ p ∈ formula.targets extent, p ∉ other.targets extent ∧ p ∉ other.reads extent

instance (extent : Extent) (formula other : Formula) : Decidable (formula.Spares extent other) :=
  inferInstanceAs (Decidable (∀ p ∈ formula.targets extent, _))

/-- Formulas of which none writes a cell that another one of the list writes or reads. What a
formula reads of its own target does not matter. -/
def Formula.Independent (extent : Extent) (formulas : List Formula) : Prop :=
  formulas.Pairwise fun f g => f.Spares extent g ∧ g.Spares extent f

instance (extent : Extent) (formulas : List Formula) :
    Decidable (Formula.Independent extent formulas) :=
  inferInstanceAs (Decidable (formulas.Pairwise _))

theorem Formula.Independent.perm {extent : Extent} {formulas reordered : List Formula}
    (h : Independent extent formulas) (hperm : formulas.Perm reordered) :
    Independent extent reordered :=
  (hperm.pairwise_iff fun hfg => ⟨hfg.2, hfg.1⟩).mp h

namespace Engine

variable {engine : Engine} {table middle after : Table} {f g : Formula}

/-- The second of two formulas does not see what the first one wrote, so it may go first; then the
first one does not see what the second one wrote. -/
theorem applyFormula_swap (hfg : f.Spares table.extent g) (hgf : g.Spares table.extent f)
    (hf : engine.applyFormula table f = .ok middle)
    (hg : engine.applyFormula middle g = .ok after) :
    ∃ middle', engine.applyFormula table g = .ok middle' ∧
      engine.applyFormula middle' f = .ok after := by
  have hwritten := applyFormula_written hf
  have hwritten' := applyFormula_written hg
  have hextent := hwritten.extent
  obtain ⟨middle', hg', hagree⟩ := applyFormula_congr hwritten.agreeOn.symm
    (fun q hq hqf => (hfg q hqf).2 hq) hg
  have hfirst := applyFormula_written hg'
  obtain ⟨after', hf', hagree'⟩ := applyFormula_congr hfirst.agreeOn
    (fun q hq hqg => (hgf q hqg).2 hq) hf
  have hsecond := applyFormula_written hf'
  refine ⟨middle', hg', ?_⟩
  rw [hextent] at hwritten'
  rw [hfirst.extent] at hsecond
  have hstretched := (applyFormula_stretched hf).append (hextent ▸ applyFormula_stretched hg)
  have hstretched' :=
    (applyFormula_stretched hg').append (hfirst.extent ▸ applyFormula_stretched hf')
  have heq : after' = after := by
    apply Table.eq_of_text_eq
    · rw [hsecond.extent, hfirst.extent, hwritten'.extent, hextent]
    · exact hstretched'.length_row_eq (by simp [or_comm]) hstretched
    · intro p
      by_cases hpf : p ∈ f.targets table.extent
      · rw [← hagree'.text p (.inr hpf), hwritten'.kept p (hfg p hpf).1]
      · rw [hsecond.kept p hpf, hagree.text p (.inl hpf)]
  rwa [heq] at hf'

theorem apply_ok_of_perm {formulas reordered : List Formula} (hperm : formulas.Perm reordered)
    (hindependent : Formula.Independent table.extent formulas)
    (h : engine.apply formulas table = .ok after) : engine.apply reordered table = .ok after := by
  induction hperm generalizing table with
  | nil => exact h
  | cons f _ ih =>
    obtain ⟨next, hf, hrest⟩ := apply_cons_eq_ok_iff.mp h
    have hextent := (applyFormula_written hf).extent
    have htail := hextent ▸ (List.pairwise_cons.mp hindependent).2
    exact apply_cons_eq_ok_iff.mpr ⟨next, hf, ih htail hrest⟩
  | swap g f rest =>
    obtain ⟨middle, hf, h⟩ := apply_cons_eq_ok_iff.mp h
    obtain ⟨next, hg, hrest⟩ := apply_cons_eq_ok_iff.mp h
    obtain ⟨hfg, hgf⟩ := (List.pairwise_cons.mp hindependent).1 g List.mem_cons_self
    obtain ⟨middle', hg', hf'⟩ := applyFormula_swap hfg hgf hf hg
    exact apply_cons_eq_ok_iff.mpr ⟨middle', hg', apply_cons_eq_ok_iff.mpr ⟨next, hf', hrest⟩⟩
  | trans hfirst _ ih₁ ih₂ => exact ih₂ (hindependent.perm hfirst) (ih₁ hindependent h)

/-- Independent formulas may be applied in any order: all orders give the same table, with rows of
the same lengths, or all orders fail. -/
theorem apply_perm {formulas reordered : List Formula}
    (hindependent : Formula.Independent table.extent formulas)
    (hperm : formulas.Perm reordered) :
    (engine.apply formulas table).toOption = (engine.apply reordered table).toOption := by
  rw [toOption_eq_iff]
  intro after
  constructor
  · exact apply_ok_of_perm hperm hindependent
  · exact apply_ok_of_perm hperm.symm (hindependent.perm hperm)

/-- Three formulas on a table with rows of three lengths. One of them counts on from cell to cell of
its own target, and the last row is padded by two of them. -/
theorem apply_perm_ragged :
    let table : Table := ⟨[["A", "B", "C"], ["1"], ["2", "7"], []]⟩
    let formulas := (Formula.ofDirectives standard.functions
      ["@3$3..@4$3=(@-1+1)", "@2$2=$1", "@4$1=sum(@2$1..@3$1)"]).toOption.getD []
    let reordered := (Formula.ofDirectives standard.functions
      ["@4$1=sum(@2$1..@3$1)", "@3$3..@4$3=(@-1+1)", "@2$2=$1"]).toOption.getD []
    standard.apply formulas table =
      .ok ⟨[["A", "B", "C"], ["1", "1"], ["2", "7", "1"], ["3", "", "2"]]⟩ ∧
    Formula.Independent table.extent formulas ∧
    formulas.Perm reordered ∧
    (standard.apply formulas table).toOption = (standard.apply reordered table).toOption := by
  intro table formulas reordered
  have happly : standard.apply formulas table =
      .ok ⟨[["A", "B", "C"], ["1", "1"], ["2", "7", "1"], ["3", "", "2"]]⟩ := by
    decide +kernel
  have hindependent : Formula.Independent table.extent formulas := by decide +kernel
  have hperm : formulas.Perm reordered := by decide +kernel
  exact ⟨happly, hindependent, hperm, apply_perm hindependent hperm⟩

end Engine

end TableCalc
