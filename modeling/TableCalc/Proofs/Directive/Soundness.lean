import TableCalc.Proofs.Directive.Readers

/-!
Every reader reads derivable texts only: what it takes off the front of a text derives the tree that
it gives.
-/

namespace TableCalc.Directive

open Text (Reads Leaves Stops)

variable {cs rest : List Char}

/-- A text has `rest` behind a part that satisfies `p`. -/
def Splits (p : List Char → Prop) (cs rest : List Char) : Prop := ∃ text, p text ∧ cs = text ++ rest

theorem gap_splits (cs : List Char) : Splits Grammar.Gap cs (gap cs).val := by
  obtain ⟨g, hg, hsplit, _⟩ := gap_eq_iff.mp (rfl : (gap cs).val = (gap cs).val)
  exact ⟨g, hg, hsplit⟩

theorem sign?_splits {first : Char} {more : List Char} (h : Leaves (sign? first more cs) rest) :
    Splits (Grammar.Spaced (first :: more)) cs rest := by
  obtain ⟨mid, hbefore, hafter⟩ := sign?_leaves.mp h
  obtain ⟨before, hb, hcs⟩ := gap_splits cs
  obtain ⟨after, ha, hmid⟩ := gap_splits mid
  refine ⟨before ++ first :: more ++ after, .mk hb ha, ?_⟩
  rw [hcs, hbefore, hmid, hafter]
  simp only [List.append_assoc]

theorem address?_splits {t : AddressTree} (h : Reads (address? cs) t rest) :
    Splits (Grammar.Address · t) cs rest := by
  rcases address?_reads.mp h with h | ⟨_, ⟨rfl, rfl⟩ | ⟨_, ⟨rfl, rfl⟩ | ⟨_, ⟨rfl, rfl⟩ | ⟨_, h⟩⟩⟩⟩
  · obtain ⟨negative, mid, rfl, digits, hread, rfl⟩ := offset?_reads.mp h
    obtain ⟨rfl, hdigits, _⟩ := digits?_reads.mp hread
    cases negative with
    | false => exact ⟨'+' :: digits, .plus hdigits, rfl⟩
    | true => exact ⟨'-' :: digits, .minus hdigits, rfl⟩
  · exact ⟨['<'], .first, rfl⟩
  · exact ⟨['>'], .last, rfl⟩
  · exact ⟨['I'], .anchor, rfl⟩
  · obtain ⟨digits, hread, rfl⟩ := h
    obtain ⟨rfl, hdigits, _⟩ := digits?_reads.mp hread
    exact ⟨digits, .index hdigits, rfl⟩

theorem coordinate?_splits {axis : Axis} {t : AddressTree}
    (h : Reads (coordinate? axis cs) t rest) :
    ∃ text, Grammar.Address text t ∧ cs = axis.sigil :: text ++ rest := by
  obtain ⟨_, rfl, hread⟩ := coordinate?_reads.mp h
  obtain ⟨text, ht, rfl⟩ := address?_splits hread
  exact ⟨text, ht, rfl⟩

theorem cell?_splits {t : CellTree} (h : Reads (cell? cs) t rest) :
    Splits (Grammar.Cell · t) cs rest := by
  rcases cell?_reads.mp h with hread | ⟨_, c, hcolumn, rfl⟩
  · obtain ⟨r, mid, hrow, hmore⟩ := rowCell?_reads.mp hread
    obtain ⟨rs, hr, rfl⟩ := coordinate?_splits hrow
    rcases hmore with ⟨c, hcolumn, rfl⟩ | ⟨_, rfl, rfl⟩
    · obtain ⟨cs, hc, rfl⟩ := coordinate?_splits hcolumn
      refine ⟨'@' :: rs ++ '$' :: cs, .both hr hc, ?_⟩
      simp [Axis.sigil]
    · exact ⟨'@' :: rs, .row hr, rfl⟩
  · obtain ⟨cs, hc, rfl⟩ := coordinate?_splits hcolumn
    exact ⟨'$' :: cs, .column hc, rfl⟩

theorem reference?_splits {t : ReferenceTree} (h : Reads (reference? cs) t rest) :
    Splits (Grammar.Reference · t) cs rest := by
  obtain ⟨s, mid, hstart, hmore⟩ := reference?_reads.mp h
  obtain ⟨ss, hs, rfl⟩ := cell?_splits hstart
  rcases hmore with ⟨f, hend, rfl⟩ | ⟨_, rfl, rfl⟩
  · obtain ⟨_, rfl, hfinish⟩ := rangeEnd?_reads.mp hend
    obtain ⟨fs, hf, rfl⟩ := cell?_splits hfinish
    refine ⟨ss ++ '.' :: '.' :: fs, .range hs hf, ?_⟩
    simp
  · exact ⟨ss, .cell hs, rfl⟩

theorem unsigned?_splits {n : List Char} (h : Reads (unsigned? cs) n rest) :
    Grammar.Unsigned n ∧ cs = n ++ rest := by
  obtain ⟨whole, mid, hwhole, hmore⟩ := unsigned?_reads.mp h
  obtain ⟨rfl, hd, _⟩ := digits?_reads.mp hwhole
  rcases hmore with ⟨fraction, hfraction, rfl⟩ | ⟨_, rfl, rfl⟩
  · obtain ⟨_, rfl, digits, hdigits, rfl⟩ := fraction?_reads.mp hfraction
    obtain ⟨rfl, hf, _⟩ := digits?_reads.mp hdigits
    refine ⟨.fraction hd hf, ?_⟩
    simp
  · exact ⟨.whole hd, rfl⟩

theorem number?_splits {t : OperandTree} (h : Reads (number? cs) t rest) :
    Splits (Grammar.Operand · t) cs rest := by
  rcases number?_reads.mp h with ⟨_, rfl, n, hread, rfl⟩ | ⟨_, n, hread, rfl⟩
  · obtain ⟨hn, rfl⟩ := unsigned?_splits hread
    exact ⟨'-' :: n, .number (.negative hn), rfl⟩
  · obtain ⟨hn, rfl⟩ := unsigned?_splits hread
    exact ⟨n, .number (.plain hn), rfl⟩

theorem text?_splits {t : OperandTree} (h : Reads (text? cs) t rest) :
    Splits (Grammar.Operand · t) cs rest := by
  obtain ⟨text, rfl, htext, rfl⟩ := text?_reads.mp h
  refine ⟨'"' :: text ++ ['"'], .text htext, ?_⟩
  simp

theorem comparator?_splits {comparator : Comparator} (h : Reads (comparator? cs) comparator rest) :
    Splits (Grammar.Comparison · comparator) cs rest := by
  rcases comparator?_reads.mp h with ⟨rfl, rfl⟩ | ⟨_, ⟨rfl, rfl⟩ | ⟨_, ⟨rfl, rfl⟩ | ⟨_, ⟨rfl, rfl⟩ |
    ⟨_, ⟨rfl, rfl⟩ | ⟨_, rfl, rfl⟩⟩⟩⟩⟩
  · exact ⟨['>', '='], .ge, rfl⟩
  · exact ⟨['<', '='], .le, rfl⟩
  · exact ⟨['=', '='], .eq, rfl⟩
  · exact ⟨['!', '='], .ne, rfl⟩
  · exact ⟨['>'], .gt, rfl⟩
  · exact ⟨['<'], .lt, rfl⟩

theorem operation?_splits {op : Operation} (h : Reads (operation? cs) op rest) :
    Splits (Grammar.Sign · op) cs rest := by
  rcases operation?_reads.mp h with ⟨rfl, rfl⟩ | ⟨_, ⟨rfl, rfl⟩ | ⟨_, ⟨rfl, rfl⟩ | ⟨_, rfl, rfl⟩⟩⟩
  · exact ⟨['+'], .add, rfl⟩
  · exact ⟨['-'], .subtract, rfl⟩
  · exact ⟨['*'], .multiply, rfl⟩
  · exact ⟨['/'], .divide, rfl⟩

theorem withGaps?_splits {α : Type} {item? : (cs : List Char) → Option (α × Text.Rest cs)}
    {p : List Char → α → Prop} {a : α}
    (hitem : ∀ {cs rest}, Reads (item? cs) a rest → Splits (p · a) cs rest)
    (h : Reads (withGaps? item? cs) a rest) :
    ∃ sign, p sign a ∧ Splits (Grammar.Spaced sign) cs rest := by
  obtain ⟨mid, hread, hafter⟩ := withGaps?_reads.mp h
  obtain ⟨sign, hsign, hitem⟩ := hitem hread
  obtain ⟨before, hb, hcs⟩ := gap_splits cs
  obtain ⟨after, ha, hmid⟩ := gap_splits mid
  refine ⟨sign, hsign, before ++ sign ++ after, .mk hb ha, ?_⟩
  rw [hcs, hitem, hmid, hafter]
  simp only [List.append_assoc]

theorem callee?_splits {name : String} (h : Reads (callee? cs) name rest) :
    ∃ chars opening, Grammar.Name chars ∧ chars ≠ ['i', 'f'] ∧ Grammar.Gap opening ∧
      name = .ofList chars ∧ cs = chars ++ '(' :: opening ++ rest := by
  obtain ⟨chars, mid, hread, hif, rfl, hrest⟩ := callee?_reads.mp h
  obtain ⟨rfl, hname, _⟩ := name?_reads.mp hread
  obtain ⟨opening, hopening, hmid⟩ := gap_splits mid
  refine ⟨chars, opening, hname, hif, hopening, rfl, ?_⟩
  rw [hmid, hrest]
  simp

/-- What `operand?` takes off the front of `cs` derives the operand that it gives. -/
private def Sound (cs : List Char) : Prop :=
  ∀ t rest, Reads (operand? cs) t rest → Splits (Grammar.Operand · t) cs rest

private theorem conditional?_splits {t : OperandTree} (ih : ∀ c, c.length < cs.length → Sound c)
    (h : Reads (conditional? cs) t rest) : Splits (Grammar.Operand · t) cs rest := by
  obtain ⟨c₁, hstart, l, c₂, hl, comparator, c₃, hcomparator, r, c₄, hr, c₅, hfirst, th, c₆, hth,
    c₇, hsecond, e, c₈, he, hend, rfl⟩ := conditional?_reads.mp h
  have h₁ := hstart.length_lt
  have h₂ := hl.length_lt
  have h₃ := hcomparator.length_lt
  have h₄ := hr.length_lt
  have h₅ := hfirst.length_lt
  have h₆ := hth.length_lt
  have h₇ := hsecond.length_lt
  obtain ⟨mid, hcs, hparen⟩ := conditionalStart?_leaves.mp hstart
  obtain ⟨opening, hopening, hmid⟩ := sign?_splits hparen
  obtain ⟨left, hleft, hc₁⟩ := ih c₁ h₁ l c₂ hl
  obtain ⟨comparisonSign, hcomparison, sign, hsign, hc₂⟩ :=
    withGaps?_splits comparator?_splits hcomparator
  obtain ⟨right, hright, hc₃⟩ := ih c₃ (by omega) r c₄ hr
  obtain ⟨comma, hcomma, hc₄⟩ := sign?_splits hfirst
  obtain ⟨thenText, hthen, hc₅⟩ := ih c₅ (by omega) th c₆ hth
  obtain ⟨comma', hcomma', hc₆⟩ := sign?_splits hsecond
  obtain ⟨elseText, helse, hc₇⟩ := ih c₇ (by omega) e c₈ he
  obtain ⟨closing, hclosing, hc₈⟩ := gap_splits c₈
  refine ⟨_, .conditional hopening hleft hcomparison hsign hright hcomma hthen hcomma' helse
    hclosing, ?_⟩
  rw [hcs, hmid, hc₁, hc₂, hc₃, hc₄, hc₅, hc₆, hc₇, hc₈, hend]
  simp

private theorem call?_splits {t : OperandTree} (ih : ∀ c, c.length < cs.length → Sound c)
    (h : Reads (call? cs) t rest) : Splits (Grammar.Operand · t) cs rest := by
  obtain ⟨name, c₁, hcallee, argument, c₂, hread, hend, rfl⟩ := call?_reads.mp h
  obtain ⟨chars, opening, hname, hif, hopening, rfl, hcs⟩ := callee?_splits hcallee
  obtain ⟨text, hargument, hc₁⟩ := ih c₁ hcallee.length_lt argument c₂ hread
  obtain ⟨closing, hclosing, hc₂⟩ := gap_splits c₂
  refine ⟨_, .call hname hif hopening hargument hclosing, ?_⟩
  rw [hcs, hc₁, hc₂, hend]
  simp

private theorem chain_splits (cs : List Char) (ih : ∀ c, c.length < cs.length → Sound c) :
    Splits (Grammar.Chain · (chain cs).1) cs (chain cs).2.val := by
  cases hlink : link? cs with
  | none =>
    rw [chain_of_none hlink]
    exact ⟨[], .done, rfl⟩
  | some link =>
    obtain ⟨⟨op, t⟩, rest, hlt⟩ := link
    have hread : Reads (link? cs) (op, t) rest := ⟨hlt, hlink⟩
    obtain ⟨hfirst, hsecond⟩ := chain_of_reads hread
    obtain ⟨mid, hop, ht⟩ := link?_reads.mp hread
    obtain ⟨sign, hsign, spaced, hspaced, hcs⟩ := withGaps?_splits operation?_splits hop
    obtain ⟨text, hoperand, hmid⟩ := ih mid hop.length_lt t rest ht
    obtain ⟨more, htail, hrest⟩ := chain_splits rest fun c hc => ih c (Nat.lt_trans hc hlt)
    rw [hfirst, hsecond]
    refine ⟨_, .link hsign hspaced hoperand htail, ?_⟩
    rw [List.append_assoc, List.append_assoc, ← hrest, ← hmid]
    exact hcs
termination_by cs.length

private theorem group?_splits {t : OperandTree} (ih : ∀ c, c.length < cs.length → Sound c)
    (h : Reads (group? cs) t rest) : Splits (Grammar.Operand · t) cs rest := by
  obtain ⟨c₁, hcs, head, c₂, hread, hend, rfl⟩ := group?_reads.mp h
  have h₁ : c₁.length < cs.length := by simp [hcs]
  have h₂ := (gap c₁).property
  have h₃ := hread.length_lt
  obtain ⟨opening, hopening, hc₁⟩ := gap_splits c₁
  obtain ⟨text, hhead, hsplit⟩ := ih _ (by omega) head c₂ hread
  obtain ⟨links, htail, hc₂⟩ := chain_splits c₂ fun c hc => ih c (by omega)
  obtain ⟨closing, hclosing, hlast⟩ := gap_splits (chain c₂).2.val
  refine ⟨_, .group hopening hhead htail hclosing, ?_⟩
  rw [hcs, hc₁, hsplit]
  simp only [List.cons_append, List.append_assoc, List.nil_append, List.cons.injEq, true_and,
    List.append_cancel_left_eq]
  rw [← hend, ← hlast]
  exact hc₂

/-- Every operand that is read is derivable. -/
theorem operand?_splits {t : OperandTree} (h : Reads (operand? cs) t rest) :
    Splits (Grammar.Operand · t) cs rest := by
  induction hn : cs.length using Nat.strongRecOn generalizing cs t rest with
  | ind n ih =>
    -- Every operand inside this one is read from what is left after a character.
    have ih : ∀ c, c.length < cs.length → Sound c :=
      fun c hc t rest hread => ih c.length (hn ▸ hc) hread rfl
    rcases operand?_reads.mp h with hread | ⟨_, hread | ⟨_, hread | ⟨_, hread | ⟨_, hread |
      ⟨_, hread⟩⟩⟩⟩⟩
    · exact conditional?_splits ih hread
    · exact call?_splits ih hread
    · obtain ⟨r, hread, rfl⟩ := hread
      obtain ⟨text, hr, rfl⟩ := reference?_splits hread
      exact ⟨text, .reference hr, rfl⟩
    · exact group?_splits ih hread
    · exact number?_splits hread
    · exact text?_splits hread

theorem display?_splits {t : DisplayTree} (h : Reads (display? cs) t rest) :
    Splits (Grammar.Display · t) cs rest := by
  rcases display?_reads.mp h with hfixed | ⟨_, ⟨rfl, rfl⟩ | ⟨_, rfl, rfl⟩⟩
  · obtain ⟨_, rfl, digits, hread, rfl⟩ := fixed?_reads.mp hfixed
    obtain ⟨rfl, hdigits, _⟩ := digits?_reads.mp hread
    refine ⟨'%' :: '.' :: digits ++ ['f'], .fixed hdigits, ?_⟩
    simp
  · exact ⟨['d', 't'], .dateTime, rfl⟩
  · exact ⟨['h', 'm'], .hoursMinutes, rfl⟩

theorem consumed_append (text rest : List Char) : consumed (text ++ rest) rest = .ofList text := by
  simp [consumed]

theorem formula?_splits {t : FormulaTree} (h : Reads (formula? cs) t rest) :
    Splits (Grammar.Formula · t) cs rest := by
  obtain ⟨target, c₁, hread, c₂, hsign, operand, c₃, hoperand, hmore⟩ := formula?_reads.mp h
  obtain ⟨ts, htarget, hcs⟩ := reference?_splits hread
  obtain ⟨equals, hequals, hc₁⟩ := sign?_splits hsign
  obtain ⟨os, hoperand, hc₂⟩ := operand?_splits hoperand
  rcases hmore with ⟨display, hpart, rfl⟩ | ⟨_, rfl, rfl⟩
  · obtain ⟨mid, hsemicolon, hdisplay⟩ := displayPart?_reads.mp hpart
    obtain ⟨semicolon, hsemicolon, hc₃⟩ := sign?_splits hsemicolon
    obtain ⟨ds, hdisplay, hmid⟩ := display?_splits hdisplay
    have hsplit : cs = ts ++ equals ++ os ++ semicolon ++ ds ++ rest := by
      rw [hcs, hc₁, hc₂, hc₃, hmid]
      simp only [List.append_assoc]
    refine ⟨_, ?_, hsplit⟩
    rw [hsplit, consumed_append]
    exact .displayed htarget hequals hoperand hsemicolon hdisplay
  · have hsplit : cs = ts ++ equals ++ os ++ c₃ := by
      rw [hcs, hc₁, hc₂]
      simp only [List.append_assoc]
    refine ⟨_, ?_, hsplit⟩
    rw [hsplit, consumed_append]
    exact .plain htarget hequals hoperand

private theorem moreFormulas_splits (t : FormulaTree) {text : List Char}
    (h : Grammar.Formula text t) (cs : List Char) :
    Splits (Grammar.Formulas · (t :: (moreFormulas cs).1)) (text ++ cs)
      (moreFormulas cs).2.val := by
  cases hnext : nextFormula? cs with
  | none =>
    rw [moreFormulas_of_none hnext]
    exact ⟨text, .one h, rfl⟩
  | some next =>
    obtain ⟨t', rest, hlt⟩ := next
    -- The grammar lists formulas from the right: the one just read waits for those behind it.
    have hread : Reads (nextFormula? cs) t' rest := ⟨hlt, hnext⟩
    obtain ⟨hfirst, hsecond⟩ := moreFormulas_of_reads hread
    obtain ⟨mid, hsign, hformula⟩ := nextFormula?_reads.mp hread
    obtain ⟨colons, hcolons, hcs⟩ := sign?_splits hsign
    obtain ⟨text', h', hmid⟩ := formula?_splits hformula
    obtain ⟨more, hmore, hrest⟩ := moreFormulas_splits t' h' rest
    rw [hfirst, hsecond]
    refine ⟨_, .more h hcolons hmore, ?_⟩
    rw [hcs, hmid, hrest]
    simp only [List.append_assoc]
termination_by cs.length

theorem formulas?_splits {ts : List FormulaTree} (h : Reads (formulas? cs) ts rest) :
    Splits (Grammar.Formulas · ts) cs rest := by
  obtain ⟨t, mid, hread, rfl, rfl⟩ := formulas?_reads.mp h
  obtain ⟨text, ht, rfl⟩ := formula?_splits hread
  exact moreFormulas_splits t ht mid

/-- Every directive that is read is derivable. -/
theorem root_of_read? {ts : List FormulaTree} (h : read? cs = some ts) :
    Grammar.Root cs ts := by
  obtain ⟨rest, hread, hend⟩ := read?_eq_some_iff.mp h
  obtain ⟨before, hbefore, hcs⟩ := gap_splits cs
  obtain ⟨after, hafter, hrest⟩ := gap_splits rest
  rw [hend, List.append_nil] at hrest
  rcases hread with hwrapped | ⟨_, hbare⟩
  · obtain ⟨c₁, hstart, c₂, hsign, c₃, hformulas, hclose⟩ := wrapped?_reads.mp hwrapped
    obtain ⟨mark, hmark, hc₁⟩ := sign?_splits hsign
    obtain ⟨text, htext, hc₂⟩ := formulas?_splits hformulas
    obtain ⟨closing, hclosing, hc₃⟩ := gap_splits c₃
    have hderived := Grammar.Root.wrapped hbefore hmark htext hclosing hafter
    rw [hcs, hstart, hc₁, hc₂, hc₃, hclose, hrest]
    simpa using hderived
  · obtain ⟨text, htext, hstart⟩ := formulas?_splits hbare
    rw [hcs, hstart, hrest, ← List.append_assoc]
    exact .bare hbefore htext hafter

end TableCalc.Directive
