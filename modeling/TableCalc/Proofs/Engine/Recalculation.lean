import TableCalc.Proofs.Engine.Dependence

/-!
Applying formulas again. If no formula reads what it or a later one writes, then a second run finds
every cell that is read as the first run found it: untouched by both runs, or written again with the
same text. The second run is compared with the first one formula by formula; before each of them the
two tables agree except on the cells that are still to be written.
-/

namespace TableCalc

/-- Formulas of which none reads a cell that it writes itself or that a later one writes. Earlier
formulas may write what later ones read, and several formulas may write the same cell. -/
structure Formula.Settled (extent : Extent) (formulas : List Formula) : Prop where
  own : ∀ f ∈ formulas, ∀ p ∈ f.reads extent, p ∉ f.targets extent
  later : formulas.Pairwise fun f g => ∀ p ∈ f.reads extent, p ∉ g.targets extent

instance (extent : Extent) (formulas : List Formula) :
    Decidable (Formula.Settled extent formulas) :=
  decidable_of_iff ((∀ f ∈ formulas, ∀ p ∈ f.reads extent, p ∉ f.targets extent) ∧
      formulas.Pairwise fun f g => ∀ p ∈ f.reads extent, p ∉ g.targets extent)
    ⟨fun h => ⟨h.1, h.2⟩, fun h => ⟨h.own, h.later⟩⟩

namespace Formula.Settled

variable {extent : Extent} {f : Formula} {rest : List Formula}

theorem tail (h : Settled extent (f :: rest)) : Settled extent rest where
  own g hg := h.own g (List.mem_cons_of_mem f hg)
  later := (List.pairwise_cons.mp h.later).2

/-- The first formula reads nothing that is still to be written. -/
theorem head (h : Settled extent (f :: rest)) :
    ∀ p ∈ f.reads extent, p ∉ Engine.targetsOf (f :: rest) extent := by
  intro p hp hmem
  rw [Engine.targetsOf_cons, List.mem_append] at hmem
  rcases hmem with hown | hlater
  · exact h.own f List.mem_cons_self p hp hown
  · obtain ⟨g, hg, hpg⟩ := List.mem_flatMap.mp hlater
    exact (List.pairwise_cons.mp h.later).1 g hg p hp hpg

end Formula.Settled

namespace Engine

variable {engine : Engine} {formulas : List Formula} {table after : Table}

/-- On tables that agree except on the cells to be written, formulas that carry over from the size
of one table to that of the other end with tables that agree everywhere. -/
theorem apply_carriesOver {extent other : Extent} {t u t' : Table}
    (hformulas : ∀ formula ∈ formulas, formula.CarriesOver extent other)
    (hsettled : Formula.Settled extent formulas)
    (h : Table.AgreeAcross extent other (· ∉ targetsOf formulas extent) t u)
    (hrun : engine.apply formulas t = .ok t') :
    ∃ u', engine.apply formulas u = .ok u' ∧
      Table.AgreeAcross extent other (fun _ => True) t' u' := by
  induction formulas generalizing t u with
  | nil =>
    cases hrun
    exact ⟨u, rfl, h.mono fun p _ => List.not_mem_nil⟩
  | cons f rest ih =>
    rw [List.forall_mem_cons] at hformulas
    obtain ⟨next, hf, hrest⟩ := apply_cons_eq_ok_iff.mp hrun
    obtain ⟨next', hf', hagree⟩ := applyFormula_carriesOver hformulas.1 h hsettled.head hf
    have hleft : Table.AgreeAcross extent other (· ∉ targetsOf rest extent) next next' := by
      refine hagree.mono fun p hp => ?_
      by_cases hpf : p ∈ f.targets extent
      · exact .inr hpf
      · left
        rw [targetsOf_cons, List.mem_append]
        exact fun hmem => hmem.elim hpf hp
    obtain ⟨u', hrest', hend⟩ := ih hformulas.2 hsettled.tail hleft hrest
    exact ⟨u', apply_cons_eq_ok_iff.mpr ⟨next', hf', hrest'⟩, hend⟩

/-- On tables of one size that agree except on the cells to be written, formulas end with tables
that agree everywhere. -/
theorem apply_congr {extent : Extent} {t u t' : Table}
    (hsettled : Formula.Settled extent formulas)
    (h : Table.AgreeOn extent (· ∉ targetsOf formulas extent) t u)
    (hrun : engine.apply formulas t = .ok t') :
    ∃ u', engine.apply formulas u = .ok u' ∧ Table.AgreeOn extent (fun _ => True) t' u' :=
  apply_carriesOver (fun formula _ => .refl formula extent) hsettled h hrun

/-- Formulas that read nothing that they or later ones write find their own results when they are
applied once more: the second run succeeds and changes nothing, neither a text nor the length of a
row. -/
theorem apply_apply (hsettled : Formula.Settled table.extent formulas)
    (h : engine.apply formulas table = .ok after) : engine.apply formulas after = .ok after := by
  have hwritten := (apply_written h).2
  obtain ⟨again, hagain, hagree⟩ := apply_congr hsettled hwritten.agreeOn h
  have hstretched := apply_stretched h
  have hstretched' := apply_stretched hagain
  rw [hwritten.extent] at hstretched'
  have heq : again = after := by
    apply Table.eq_of_text_eq
    · rw [hagree.right, hwritten.extent]
    · exact (hstretched.append hstretched').length_row_eq (by simp) hstretched
    · exact fun p => (hagree.text p trivial).symm
  rwa [heq] at hagain

/-- Two formulas write one cell, a third one reads what they wrote, and all rows are padded. -/
theorem apply_apply_totals :
    let table : Table := ⟨[["A", "B"], ["2"], ["3"], []]⟩
    let after : Table := ⟨[["A", "B"], ["2", "4"], ["3", "6"], ["", "10.0"]]⟩
    let formulas := (Formula.ofDirectives standard.functions
      ["@2$2=7", "@2$2..@3$2=($1*2)", "@>$2=sum(@I..@-1);%.1f"]).toOption.getD []
    Formula.Settled table.extent formulas ∧
    standard.apply formulas table = .ok after ∧
    standard.apply formulas after = .ok after := by
  intro table after formulas
  have hsettled : Formula.Settled table.extent formulas := by decide +kernel
  have h : standard.apply formulas table = .ok after := by decide +kernel
  exact ⟨hsettled, h, apply_apply hsettled h⟩

end Engine

end TableCalc
