import TableCalc.Proofs.Directive.Completeness.Operand

/-!
Formulas and whole directives are read wherever they are derivable. Behind a formula stand gaps and
then two colons, the end of the comment or nothing, so its display and its successors are found if
they are there and not mistaken for anything else if they are not.
-/

namespace TableCalc.Directive

open Text (Reads Leaves Stops stops_mono ne_cons_of_stops word?_cons_eq_none)

variable {rest : List Char}

/-- The characters that can make a formula longer, gaps apart. -/
def prolongsFormula (c : Char) : Bool := prolongs c || c == ';'

/-- The characters that can make a list of formulas longer, gaps apart. -/
def prolongsFormulas (c : Char) : Bool := prolongsFormula c || c == ':'

theorem stops_prolongsFormula {cs : List Char} (h : Stops prolongsFormulas cs) :
    Stops prolongsFormula cs :=
  stops_mono (fun _ hc => (Bool.or_eq_false_iff.mp hc).1) h

theorem stops_prolongs {cs : List Char} (h : Stops prolongsFormula cs) : Stops prolongs cs :=
  stops_mono (fun _ hc => (Bool.or_eq_false_iff.mp hc).1) h

theorem display_head {text : List Char} {t : DisplayTree} (h : Grammar.Display text t) :
    ∃ c more, text = c :: more ∧ isGap c = false := by
  cases h with
  | fixed hd => exact ⟨'%', _, rfl, rfl⟩
  | dateTime => exact ⟨'d', _, rfl, rfl⟩
  | hoursMinutes => exact ⟨'h', _, rfl, rfl⟩

theorem fixed?_cons_eq_none {c : Char} {cs : List Char} (h : c ≠ '%') :
    fixed? (c :: cs) = none := by
  refine Text.eq_none_iff.mpr fun t rest hread => ?_
  obtain ⟨_, hcs, _⟩ := fixed?_reads.mp hread
  exact h (List.cons.inj hcs).1

theorem display?_of_display {text : List Char} {t : DisplayTree} (h : Grammar.Display text t)
    (rest : List Char) : Reads (display? (text ++ rest)) t rest := by
  cases h with
  | fixed hd =>
    rename_i ds
    have htext : '%' :: '.' :: ds ++ ['f'] ++ rest = '%' :: '.' :: (ds ++ 'f' :: rest) := by simp
    have hdigits : Reads (digits? (ds ++ 'f' :: rest)) ds ('f' :: rest) :=
      digits?_of_digits hd (Text.stops_of_head rfl _)
    rw [htext, display?_reads]
    exact .inl (fixed?_reads.mpr ⟨_, rfl, ds, hdigits, rfl⟩)
  | dateTime => exact display?_reads.mpr (.inr ⟨fixed?_cons_eq_none (by decide), .inl ⟨rfl, rfl⟩⟩)
  | hoursMinutes =>
    exact display?_reads.mpr (.inr ⟨fixed?_cons_eq_none (by decide),
      .inr ⟨word?_cons_eq_none (by decide), rfl, rfl⟩⟩)

theorem displayPart?_of_display {semicolon ds : List Char} {t : DisplayTree}
    (hsemicolon : Grammar.Spaced [';'] semicolon) (h : Grammar.Display ds t) (rest : List Char) :
    Reads (displayPart? (semicolon ++ (ds ++ rest))) t rest := by
  have hread := display?_of_display h rest
  obtain ⟨c, more, rfl, hc⟩ := display_head h
  exact displayPart?_reads.mpr ⟨_, sign?_of_spaced rfl hsemicolon (Text.stops_of_head hc _),
    hread⟩

theorem displayPart?_eq_none {cs : List Char} (h : Stops prolongsFormula (gap cs).val) :
    displayPart? cs = none := by
  refine Text.eq_none_iff.mpr fun t rest hread => ?_
  obtain ⟨mid, hsign, _⟩ := displayPart?_reads.mp hread
  obtain ⟨after, hsemicolon, _⟩ := sign?_leaves.mp hsign
  exact ne_cons_of_stops h rfl hsemicolon

/-- The target, the equals sign and the operand of a formula, whatever stands behind them. -/
private theorem reads_assignment {ts equals os : List Char} {target : ReferenceTree}
    {operand : OperandTree} (htarget : Grammar.Reference ts target)
    (hequals : Grammar.Spaced ['='] equals) (hoperand : Grammar.Operand os operand)
    (hrest : Stops prolongs rest) :
    Reads (reference? (ts ++ (equals ++ (os ++ rest)))) target (equals ++ (os ++ rest)) ∧
      Leaves (sign? '=' [] (equals ++ (os ++ rest))) (os ++ rest) ∧
      Reads (operand? (os ++ rest)) operand rest :=
  ⟨reference?_of_reference htarget (stops_spaced hequals rfl rfl rfl _),
    sign?_of_spaced rfl hequals (stops_operand hoperand isGap_of_startsOperand rest),
    operand?_of_operand hoperand hrest⟩

theorem formula?_of_formula {text : List Char} {t : FormulaTree} (h : Grammar.Formula text t)
    (hrest : Stops prolongsFormula (gap rest).val) : Reads (formula? (text ++ rest)) t rest := by
  rw [formula?_reads]
  cases h with
  | plain htarget hequals hoperand =>
    rename_i ts equals os target operand
    have hstop : Stops prolongs rest := stops_of_gap rfl rfl (stops_prolongs hrest)
    obtain ⟨hread, hsign, hoperand⟩ := reads_assignment htarget hequals hoperand hstop
    have htext : ts ++ equals ++ os ++ rest = ts ++ (equals ++ (os ++ rest)) := by simp
    have hsource := consumed_append (ts ++ equals ++ os) rest
    rw [htext] at hsource ⊢
    refine ⟨_, _, hread, _, hsign, _, _, hoperand, .inr ⟨displayPart?_eq_none hrest, ?_, rfl⟩⟩
    rw [hsource]
  | displayed htarget hequals hoperand hsemicolon hdisplay =>
    rename_i ts equals os semicolon ds target operand display
    have hstop : Stops prolongs (semicolon ++ (ds ++ rest)) :=
      stops_spaced hsemicolon rfl rfl rfl _
    obtain ⟨hread, hsign, hoperand⟩ := reads_assignment htarget hequals hoperand hstop
    have hpart := displayPart?_of_display hsemicolon hdisplay rest
    have htext : ts ++ equals ++ os ++ semicolon ++ ds ++ rest =
        ts ++ (equals ++ (os ++ (semicolon ++ (ds ++ rest)))) := by
      simp
    have hsource := consumed_append (ts ++ equals ++ os ++ semicolon ++ ds) rest
    rw [htext] at hsource ⊢
    refine ⟨_, _, hread, _, hsign, _, _, hoperand, .inl ⟨_, hpart, ?_⟩⟩
    rw [hsource]

theorem formula_head {text : List Char} {t : FormulaTree} (h : Grammar.Formula text t) :
    ∃ axis more, text = Axis.sigil axis :: more := by
  cases h with
  | plain htarget | displayed htarget =>
    obtain ⟨axis, more, rfl⟩ := reference_head htarget
    exact ⟨axis, _, rfl⟩

theorem formulas_head {text : List Char} {ts : List FormulaTree} (h : Grammar.Formulas text ts) :
    ∃ axis more, text = Axis.sigil axis :: more := by
  cases h with
  | one h => exact formula_head h
  | more h =>
    obtain ⟨axis, more, rfl⟩ := formula_head h
    exact ⟨axis, _, rfl⟩

theorem isGap_sigil (axis : Axis) : isGap axis.sigil = false := by
  cases axis with
  | row => rfl
  | column => rfl

theorem stops_formulas {text : List Char} {ts : List FormulaTree} (h : Grammar.Formulas text ts)
    (rest : List Char) : Stops isGap (text ++ rest) := by
  obtain ⟨axis, more, rfl⟩ := formulas_head h
  exact Text.stops_of_head (isGap_sigil axis) _

theorem nextFormula?_eq_none {cs : List Char} (h : Stops prolongsFormulas (gap cs).val) :
    nextFormula? cs = none := by
  refine Text.eq_none_iff.mpr fun t rest hread => ?_
  obtain ⟨mid, hsign, _⟩ := nextFormula?_reads.mp hread
  obtain ⟨after, hcolons, _⟩ := sign?_leaves.mp hsign
  exact ne_cons_of_stops h rfl hcolons

theorem formulas?_of_formulas {text : List Char} {ts : List FormulaTree}
    (h : Grammar.Formulas text ts) (hrest : Stops prolongsFormulas (gap rest).val) :
    Reads (formulas? (text ++ rest)) ts rest := by
  induction h with
  | one h =>
    have hread := formula?_of_formula h (stops_prolongsFormula hrest)
    have hmore := moreFormulas_of_none (nextFormula?_eq_none hrest)
    refine formulas?_reads.mpr ⟨_, rest, hread, ?_, ?_⟩
    · rw [hmore]
    · rw [hmore]
      rfl
  | more hformula hcolons hmore ih =>
    rename_i cs colons more t ts
    obtain ⟨t', mid, hread', rfl, hmid⟩ := formulas?_reads.mp ih
    have hsign : Leaves (sign? ':' [':'] (colons ++ (more ++ rest))) (more ++ rest) :=
      sign?_of_spaced rfl hcolons (stops_formulas hmore rest)
    have hnext : Reads (nextFormula? (colons ++ (more ++ rest))) t' mid :=
      nextFormula?_reads.mpr ⟨_, hsign, hread'⟩
    obtain ⟨htrees, hleft⟩ := moreFormulas_of_reads hnext
    have hstop : Stops prolongsFormula (gap (colons ++ (more ++ rest))).val := by
      obtain ⟨after, hcolons, _⟩ := sign?_leaves.mp hsign
      rw [hcolons]
      exact Text.stops_of_head rfl _
    have hread := formula?_of_formula hformula hstop
    rw [List.append_assoc, List.append_assoc]
    refine formulas?_reads.mpr ⟨t, _, hread, ?_, ?_⟩
    · rw [htrees]
    · rw [hleft, hmid]

theorem wrapped?_cons_eq_none {c : Char} {cs : List Char} (h : c ≠ '<') :
    wrapped? (c :: cs) = none := by
  refine Text.eq_none_iff.mpr fun ts rest hread => ?_
  obtain ⟨_, hcs, _⟩ := wrapped?_reads.mp hread
  exact h (List.cons.inj hcs).1

theorem gap_eq_nil {after : List Char} (h : Grammar.Gap after) : (gap after).val = [] := by
  have hgap := gap_append h (Text.stops_nil isGap)
  rwa [List.append_nil] at hgap

theorem wrapped?_of_formulas {mark text closing : List Char} {ts : List FormulaTree}
    (hmark : Grammar.Spaced ['T', 'B', 'L', 'F', 'M', ':'] mark) (h : Grammar.Formulas text ts)
    (hclosing : Grammar.Gap closing) (rest : List Char) :
    Reads (wrapped? ('<' :: '!' :: '-' :: '-' :: (mark ++ (text ++ (closing ++ '-' :: '-' :: '>' ::
      rest))))) ts rest := by
  have hend : (gap (closing ++ '-' :: '-' :: '>' :: rest)).val = '-' :: '-' :: '>' :: rest :=
    gap_append hclosing (Text.stops_of_head rfl _)
  have hstop : Stops prolongsFormulas (gap (closing ++ '-' :: '-' :: '>' :: rest)).val := by
    rw [hend]
    exact Text.stops_of_head rfl _
  exact wrapped?_reads.mpr ⟨_, rfl, _, sign?_of_spaced rfl hmark (stops_formulas h _), _,
    formulas?_of_formulas h hstop, hend⟩

/-- Every derivable directive is read. -/
theorem read?_of_root {cs : List Char} {ts : List FormulaTree} (h : Grammar.Root cs ts) :
    read? cs = some ts := by
  rw [read?_eq_some_iff]
  cases h with
  | bare hbefore h hafter =>
    rename_i before text after
    have hend := gap_eq_nil hafter
    have hread := formulas?_of_formulas h (hend ▸ Text.stops_nil _)
    rw [List.append_assoc, gap_append hbefore (stops_formulas h after)]
    obtain ⟨axis, more, rfl⟩ := formulas_head h
    -- The comment is tried first; no formula starts as it does.
    have hne : axis.sigil ≠ '<' := by
      cases axis with
      | row => decide
      | column => decide
    exact ⟨after, .inr ⟨wrapped?_cons_eq_none hne, hread⟩, hend⟩
  | wrapped hbefore hmark h hclosing hafter =>
    rename_i before mark text closing after
    have hread := wrapped?_of_formulas hmark h hclosing after
    have htext : before ++ ['<', '!', '-', '-'] ++ mark ++ text ++ closing ++ ['-', '-', '>'] ++
          after =
        before ++ '<' :: '!' :: '-' :: '-' :: (mark ++ (text ++ (closing ++ '-' :: '-' :: '>' ::
          after))) := by
      simp
    rw [htext, gap_append hbefore (Text.stops_of_head rfl _)]
    exact ⟨after, .inl hread, gap_eq_nil hafter⟩

/-- The directives that are read are the derivable ones, each as what any derivation of it
builds. -/
theorem read?_eq_some_iff_root {cs : List Char} {ts : List FormulaTree} :
    read? cs = some ts ↔ Grammar.Root cs ts :=
  ⟨root_of_read?, read?_of_root⟩

end TableCalc.Directive
