import TableCalc.Proofs.Directive.Completeness.Token
import TableCalc.Proofs.Directive.Soundness

/-!
Operands are read wherever they are derivable. By induction on the derivation: each alternative is
read if its parts are, and the alternatives that are tried before it do not fit.
-/

namespace TableCalc.Directive

open Text (Reads Leaves Stops ne_of_class ne_cons_of_stops)

variable {rest : List Char}

theorem isNameChar_of_name {name : List Char} (h : Grammar.Name name) :
    ∀ c ∈ name, isNameChar c = true := by
  obtain ⟨hc, hmore⟩ := h
  intro d hd
  rw [isNameChar_iff]
  cases hd with
  | head => exact .inl (by simp [Char.isAlphanum, hc])
  | tail _ hd => exact hmore d hd

theorem callee?_of_name {name opening : List Char} (hname : Grammar.Name name)
    (hif : name ≠ ['i', 'f']) (hopening : Grammar.Gap opening) (hrest : Stops isGap rest) :
    Reads (callee? (name ++ ('(' :: opening ++ rest))) (.ofList name) rest :=
  callee?_reads.mpr ⟨name, opening ++ rest,
    name?_reads.mpr ⟨rfl, hname, Text.stops_of_head rfl _⟩, hif, rfl, gap_append hopening hrest⟩

section Choices

variable {c : Char} {cs : List Char}

theorem conditional?_eq_none
    (h : ∀ mid rest, Leaves (sign? '(' [] mid) rest → cs ≠ 'i' :: 'f' :: mid) :
    conditional? cs = none := by
  refine Text.eq_none_iff.mpr fun t rest hread => ?_
  obtain ⟨c₁, hstart, _⟩ := conditional?_reads.mp hread
  obtain ⟨mid, hcs, hsign⟩ := conditionalStart?_leaves.mp hstart
  exact h mid c₁ hsign hcs

theorem conditional?_cons_eq_none (h : c ≠ 'i') : conditional? (c :: cs) = none :=
  conditional?_eq_none fun _ _ _ hcs => h (List.cons.inj hcs).1

/-- A call does not read as a condition: `if` would have to be its whole name. -/
theorem conditional?_call_eq_none {name : List Char} (hname : Grammar.Name name)
    (hif : name ≠ ['i', 'f']) : conditional? (name ++ '(' :: cs) = none := by
  refine conditional?_eq_none fun mid rest hsign hcs => hif ?_
  obtain ⟨opening, hopening, rfl⟩ := sign?_splits hsign
  have hstop : Stops isNameChar (opening ++ rest) := stops_spaced hopening rfl rfl rfl rest
  -- Both sides start with the same longest run of name characters.
  have hleft : (name ++ '(' :: cs).takeWhile isNameChar = name :=
    Text.takeWhile_append (isNameChar_of_name hname) (Text.stops_of_head rfl cs)
  have hword : ∀ c ∈ ['i', 'f'], isNameChar c = true := List.all_eq_true.mp rfl
  have hright : ('i' :: 'f' :: (opening ++ rest)).takeWhile isNameChar = ['i', 'f'] :=
    Text.takeWhile_append hword hstop
  rw [← hleft, hcs, hright]

theorem call?_cons_eq_none (h : c.isAlpha = false) : call? (c :: cs) = none := by
  refine Text.eq_none_iff.mpr fun t rest hread => ?_
  obtain ⟨name, c₁, hcallee, _⟩ := call?_reads.mp hread
  obtain ⟨chars, mid, hname, _⟩ := callee?_reads.mp hcallee
  obtain ⟨hcs, ⟨hc, _⟩, _⟩ := name?_reads.mp hname
  exact ne_of_class hc h (List.cons.inj hcs).1.symm

theorem reference?_cons_eq_none (hrow : c ≠ '@') (hcolumn : c ≠ '$') :
    reference? (c :: cs) = none := by
  refine Text.eq_none_iff.mpr fun t rest hread => ?_
  obtain ⟨text, hr, hcs⟩ := reference?_splits hread
  obtain ⟨axis, more, rfl⟩ := reference_head hr
  cases axis with
  | row => exact hrow (List.cons.inj hcs).1
  | column => exact hcolumn (List.cons.inj hcs).1

theorem group?_cons_eq_none (h : c ≠ '(') : group? (c :: cs) = none := by
  refine Text.eq_none_iff.mpr fun t rest hread => ?_
  obtain ⟨_, hcs, _⟩ := group?_reads.mp hread
  exact h (List.cons.inj hcs).1

theorem number?_cons_eq_none (hminus : c ≠ '-') (hdigit : c.isDigit = false) :
    number? (c :: cs) = none := by
  refine Text.eq_none_iff.mpr fun t rest hread => ?_
  rcases number?_reads.mp hread with ⟨_, hcs, _⟩ | ⟨_, n, hunsigned, _⟩
  · exact hminus (List.cons.inj hcs).1
  · obtain ⟨hn, hcs⟩ := unsigned?_splits hunsigned
    obtain ⟨d, more, rfl, hd⟩ := unsigned_head hn
    exact ne_of_class hd hdigit (List.cons.inj hcs).1.symm

end Choices

theorem comparison_head {sign : List Char} {comparator : Comparator}
    (h : Grammar.Comparison sign comparator) :
    ∃ c more, sign = c :: more ∧ isGap c = false ∧ prolongs c = false := by
  cases h with
  | ge | le | eq | ne | gt | lt => exact ⟨_, _, rfl, rfl, rfl⟩

theorem sign_head {sign : List Char} {op : Operation} (h : Grammar.Sign sign op) :
    ∃ c, sign = [c] ∧ isGap c = false ∧ prolongs c = false := by
  cases h with
  | add | subtract | multiply | divide => exact ⟨_, rfl, rfl, rfl⟩

/-- `text` is derivable, and read as `t` wherever nothing behind it makes it longer. -/
private structure Complete (text : List Char) (t : OperandTree) : Prop where
  derivable : Grammar.Operand text t
  reads : ∀ rest, Stops prolongs rest → Reads (operand? (text ++ rest)) t rest

private theorem Complete.stops {text : List Char} {t : OperandTree} (h : Complete text t)
    (rest : List Char) : Stops isGap (text ++ rest) :=
  stops_operand h.derivable isGap_of_startsOperand rest

private theorem stops_of_closing {closing : List Char} (h : (gap closing).val = ')' :: rest) :
    Stops prolongs closing := by
  refine stops_of_gap rfl rfl ?_
  rw [h]
  exact Text.stops_of_head rfl _

private theorem withGaps?_comparator {sign spaced right : List Char} {comparator : Comparator}
    {r : OperandTree} (hsign : Grammar.Comparison sign comparator)
    (hspaced : Grammar.Spaced sign spaced) (hr : Complete right r) (rest : List Char) :
    Reads (withGaps? comparator? (spaced ++ (right ++ rest))) comparator (right ++ rest) := by
  obtain ⟨c, more, rfl, hc, _⟩ := comparison_head hsign
  refine withGaps?_of_spaced hspaced (fun _ => Text.stops_of_head hc _) (hr.stops rest) ?_
  intro after hafter
  -- After `>` and `<` no equals sign can follow, since no operand starts with one.
  have hne : ∀ c, startsOperand c = true → (c == '=') = false := fun c hc =>
    beq_eq_false_iff_ne.mpr (ne_of_class hc rfl)
  have hstop : Stops (· == '=') (after ++ (right ++ rest)) :=
    stops_gap_append hafter rfl rfl (stops_operand hr.derivable hne rest)
  exact comparator?_of_comparison hsign fun tail => ne_cons_of_stops hstop rfl

private theorem conditional?_of_parts
    {opening left sign spaced right comma thenText comma' elseText closing : List Char}
    {l r t e : OperandTree} {comparator : Comparator} (hopening : Grammar.Spaced ['('] opening)
    (hl : Complete left l) (hsign : Grammar.Comparison sign comparator)
    (hspaced : Grammar.Spaced sign spaced) (hr : Complete right r)
    (hcomma : Grammar.Spaced [','] comma) (ht : Complete thenText t)
    (hcomma' : Grammar.Spaced [','] comma') (he : Complete elseText e)
    (hclosing : (gap closing).val = ')' :: rest) :
    Reads (conditional? ('i' :: 'f' :: (opening ++ (left ++ (spaced ++ (right ++ (comma ++
      (thenText ++ (comma' ++ (elseText ++ closing)))))))))) (.conditional l comparator r t e)
      rest := by
  have hstart : ∀ tail, Leaves (conditionalStart? ('i' :: 'f' :: (opening ++ (left ++ tail))))
      (left ++ tail) := fun tail =>
    conditionalStart?_leaves.mpr ⟨_, rfl, sign?_of_spaced rfl hopening (hl.stops tail)⟩
  have hleft : ∀ tail, Reads (operand? (left ++ (spaced ++ tail))) l (spaced ++ tail) := by
    intro tail
    obtain ⟨c, more, rfl, _, hc⟩ := comparison_head hsign
    exact hl.reads _ (stops_spaced hspaced rfl rfl hc tail)
  have hright : ∀ tail, Reads (operand? (right ++ (comma ++ tail))) r (comma ++ tail) := fun tail =>
    hr.reads _ (stops_spaced hcomma rfl rfl rfl tail)
  have hthen : ∀ tail, Reads (operand? (thenText ++ (comma' ++ tail))) t (comma' ++ tail) :=
    fun tail => ht.reads _ (stops_spaced hcomma' rfl rfl rfl tail)
  have hend : Stops prolongs closing := stops_of_closing hclosing
  exact conditional?_reads.mpr ⟨_, hstart _, l, _, hleft _, comparator, _,
    withGaps?_comparator hsign hspaced hr _, r, _, hright _, _,
    sign?_of_spaced rfl hcomma (ht.stops _), t, _, hthen _, _,
    sign?_of_spaced rfl hcomma' (he.stops _), e, _, he.reads _ hend, hclosing, rfl⟩

private theorem call?_of_parts {name opening text closing : List Char} {argument : OperandTree}
    (hname : Grammar.Name name) (hif : name ≠ ['i', 'f']) (hopening : Grammar.Gap opening)
    (hargument : Complete text argument) (hclosing : (gap closing).val = ')' :: rest) :
    Reads (call? (name ++ ('(' :: opening ++ (text ++ closing)))) (.call (.ofList name) argument)
      rest :=
  call?_reads.mpr ⟨_, _, callee?_of_name hname hif hopening (hargument.stops closing), _, _,
    hargument.reads closing (stops_of_closing hclosing), hclosing, rfl⟩

/-- The repetition in a group ends before the closing parenthesis. -/
private theorem link?_eq_none {closing : List Char} (h : (gap closing).val = ')' :: rest) :
    link? closing = none := by
  refine Text.eq_none_iff.mpr fun ⟨op, t⟩ left hread => ?_
  obtain ⟨mid, hop, _⟩ := link?_reads.mp hread
  obtain ⟨after, hsign, _⟩ := withGaps?_reads.mp hop
  obtain ⟨sign, hsign, hsplit⟩ := operation?_splits hsign
  rw [h] at hsplit
  cases hsign with
  | add | subtract | multiply | divide => cases hsplit

/-- The repetition in a group is read as far as it goes. -/
private def CompleteChain (links : List Char) (tail : ChainTree) : Prop :=
  ∀ closing rest, (gap closing).val = ')' :: rest →
    Stops prolongs (links ++ closing) ∧
      (chain (links ++ closing)).1 = tail ∧ (chain (links ++ closing)).2.val = closing

private theorem chain_of_done : CompleteChain [] .done := by
  intro closing rest hclosing
  rw [List.nil_append, chain_of_none (link?_eq_none hclosing)]
  exact ⟨stops_of_closing hclosing, rfl, rfl⟩

private theorem chain_of_link {sign spaced text more : List Char} {op : Operation}
    {operand : OperandTree} {tail : ChainTree} (hsign : Grammar.Sign sign op)
    (hspaced : Grammar.Spaced sign spaced) (hoperand : Complete text operand)
    (htail : CompleteChain more tail) :
    CompleteChain (spaced ++ text ++ more) (.link op operand tail) := by
  intro closing rest hclosing
  obtain ⟨hstop, hfirst, hsecond⟩ := htail closing rest hclosing
  obtain ⟨c, rfl, hc, hlong⟩ := sign_head hsign
  have hop : Reads (withGaps? operation? (spaced ++ (text ++ (more ++ closing)))) op
      (text ++ (more ++ closing)) :=
    withGaps?_of_spaced hspaced (fun _ => Text.stops_of_head hc _) (hoperand.stops _)
      fun _ _ => operation?_of_sign hsign _
  have hlink : Reads (link? (spaced ++ (text ++ (more ++ closing)))) (op, operand)
      (more ++ closing) :=
    link?_reads.mpr ⟨_, hop, hoperand.reads _ hstop⟩
  obtain ⟨htree, hleft⟩ := chain_of_reads hlink
  rw [List.append_assoc, List.append_assoc, htree, hleft, hfirst]
  exact ⟨stops_spaced hspaced rfl rfl hlong _, rfl, hsecond⟩

private theorem group?_of_parts {opening text links closing : List Char} {head : OperandTree}
    {tail : ChainTree} (hopening : Grammar.Gap opening) (hhead : Complete text head)
    (htail : CompleteChain links tail) (hclosing : (gap closing).val = ')' :: rest) :
    Reads (group? ('(' :: (opening ++ (text ++ (links ++ closing))))) (.group head tail) rest := by
  obtain ⟨hstop, hfirst, hsecond⟩ := htail closing rest hclosing
  refine group?_reads.mpr ⟨_, rfl, head, links ++ closing, ?_, ?_, ?_⟩
  · rw [gap_append hopening (hhead.stops _)]
    exact hhead.reads _ hstop
  · rw [hsecond]
    exact hclosing
  · rw [hfirst]

private theorem gap_closing {closing : List Char} (h : Grammar.Gap closing) (rest : List Char) :
    (gap (closing ++ ')' :: rest)).val = ')' :: rest :=
  gap_append h (Text.stops_of_head rfl _)

private theorem complete_conditional
    {opening left sign spaced right comma thenText comma' elseText closing : List Char}
    {l r t e : OperandTree} {comparator : Comparator} (hopening : Grammar.Spaced ['('] opening)
    (hl : Complete left l) (hsign : Grammar.Comparison sign comparator)
    (hspaced : Grammar.Spaced sign spaced) (hr : Complete right r)
    (hcomma : Grammar.Spaced [','] comma) (ht : Complete thenText t)
    (hcomma' : Grammar.Spaced [','] comma') (he : Complete elseText e)
    (hclosing : Grammar.Gap closing) :
    Complete ('i' :: 'f' :: opening ++ left ++ spaced ++ right ++ comma ++ thenText ++ comma' ++
      elseText ++ closing ++ [')']) (.conditional l comparator r t e) := by
  refine ⟨.conditional hopening hl.derivable hsign hspaced hr.derivable hcomma ht.derivable hcomma'
    he.derivable hclosing, fun rest _ => ?_⟩
  have hread := conditional?_of_parts hopening hl hsign hspaced hr hcomma ht hcomma' he
    (gap_closing hclosing rest)
  have htext : 'i' :: 'f' :: opening ++ left ++ spaced ++ right ++ comma ++ thenText ++ comma' ++
      elseText ++ closing ++ [')'] ++ rest =
      'i' :: 'f' :: (opening ++ (left ++ (spaced ++ (right ++ (comma ++ (thenText ++ (comma' ++
        (elseText ++ (closing ++ ')' :: rest))))))))) := by
    simp
  rw [htext]
  exact operand?_reads.mpr (.inl hread)

private theorem complete_call {name opening text closing : List Char} {argument : OperandTree}
    (hname : Grammar.Name name) (hif : name ≠ ['i', 'f']) (hopening : Grammar.Gap opening)
    (hargument : Complete text argument) (hclosing : Grammar.Gap closing) :
    Complete (name ++ '(' :: opening ++ text ++ closing ++ [')'])
      (.call (.ofList name) argument) := by
  refine ⟨.call hname hif hopening hargument.derivable hclosing, fun rest _ => ?_⟩
  have hread := call?_of_parts hname hif hopening hargument (gap_closing hclosing rest)
  have htext : name ++ '(' :: opening ++ text ++ closing ++ [')'] ++ rest =
      name ++ ('(' :: opening ++ (text ++ (closing ++ ')' :: rest))) := by
    simp
  rw [htext]
  exact operand?_reads.mpr (.inr ⟨conditional?_call_eq_none hname hif, .inl hread⟩)

private theorem complete_reference {text : List Char} {t : ReferenceTree}
    (h : Grammar.Reference text t) : Complete text (.reference t) := by
  refine ⟨.reference h, fun rest hrest => ?_⟩
  have hread := reference?_of_reference h hrest
  obtain ⟨axis, more, rfl⟩ := reference_head h
  have hsigil : axis.sigil ≠ 'i' ∧ axis.sigil.isAlpha = false := by
    cases axis with
    | row => exact ⟨by decide, rfl⟩
    | column => exact ⟨by decide, rfl⟩
  exact operand?_reads.mpr (.inr ⟨conditional?_cons_eq_none hsigil.1,
    .inr ⟨call?_cons_eq_none hsigil.2, .inl ⟨_, hread, rfl⟩⟩⟩)

private theorem complete_group {opening text links closing : List Char} {head : OperandTree}
    {tail : ChainTree} (hopening : Grammar.Gap opening) (hhead : Complete text head)
    (hlinks : Grammar.Chain links tail) (htail : CompleteChain links tail)
    (hclosing : Grammar.Gap closing) :
    Complete ('(' :: opening ++ text ++ links ++ closing ++ [')']) (.group head tail) := by
  refine ⟨.group hopening hhead.derivable hlinks hclosing, fun rest _ => ?_⟩
  have hread := group?_of_parts hopening hhead htail (gap_closing hclosing rest)
  have htext : '(' :: opening ++ text ++ links ++ closing ++ [')'] ++ rest =
      '(' :: (opening ++ (text ++ (links ++ (closing ++ ')' :: rest)))) := by
    simp
  rw [htext]
  exact operand?_reads.mpr (.inr ⟨conditional?_cons_eq_none (by decide),
    .inr ⟨call?_cons_eq_none rfl, .inr ⟨reference?_cons_eq_none (by decide) (by decide),
      .inl hread⟩⟩⟩)

private theorem complete_number {text : List Char} (h : Grammar.Number text) :
    Complete text (.number (.ofList text)) := by
  refine ⟨.number h, fun rest hrest => ?_⟩
  have hread := number?_of_number h hrest
  obtain ⟨c, more, rfl, hc⟩ := number_head h
  have hne : ∀ d, d ≠ '-' → d.isDigit = false → c ≠ d := by
    rintro d hminus hdigit rfl
    rcases hc with rfl | hc
    · exact hminus rfl
    · rw [hc] at hdigit
      cases hdigit
  have halpha : c.isAlpha = false := by
    rcases hc with rfl | hc
    · rfl
    · exact isAlpha_of_isDigit hc
  exact operand?_reads.mpr (.inr ⟨conditional?_cons_eq_none (hne _ (by decide) rfl),
    .inr ⟨call?_cons_eq_none halpha,
      .inr ⟨reference?_cons_eq_none (hne _ (by decide) rfl) (hne _ (by decide) rfl),
        .inr ⟨group?_cons_eq_none (hne _ (by decide) rfl), .inl hread⟩⟩⟩⟩)

private theorem complete_text {text : List Char} (h : Grammar.Quotable text) :
    Complete ('"' :: text ++ ['"']) (.text (.ofList text)) := by
  refine ⟨.text h, fun rest _ => ?_⟩
  exact operand?_reads.mpr (.inr ⟨conditional?_cons_eq_none (by decide),
    .inr ⟨call?_cons_eq_none rfl, .inr ⟨reference?_cons_eq_none (by decide) (by decide),
      .inr ⟨group?_cons_eq_none (by decide), .inr ⟨number?_cons_eq_none (by decide) rfl,
        text?_of_quotable h⟩⟩⟩⟩⟩)

mutual

private theorem complete_of_operand {text : List Char} {t : OperandTree}
    (h : Grammar.Operand text t) : Complete text t := by
  cases h with
  | conditional hopening hleft hsign hspaced hright hcomma hthen hcomma' helse hclosing =>
    exact complete_conditional hopening (complete_of_operand hleft) hsign hspaced
      (complete_of_operand hright) hcomma (complete_of_operand hthen) hcomma'
      (complete_of_operand helse) hclosing
  | call hname hif hopening hargument hclosing =>
    exact complete_call hname hif hopening (complete_of_operand hargument) hclosing
  | reference hr => exact complete_reference hr
  | group hopening hhead htail hclosing =>
    exact complete_group hopening (complete_of_operand hhead) htail (complete_of_chain htail)
      hclosing
  | number hn => exact complete_number hn
  | text hq => exact complete_text hq

private theorem complete_of_chain {links : List Char} {tail : ChainTree}
    (h : Grammar.Chain links tail) : CompleteChain links tail := by
  cases h with
  | done => exact chain_of_done
  | link hsign hspaced hoperand htail =>
    exact chain_of_link hsign hspaced (complete_of_operand hoperand) (complete_of_chain htail)

end

/-- Every derivable operand is read, wherever nothing behind it makes it longer. -/
theorem operand?_of_operand {text : List Char} {t : OperandTree} (h : Grammar.Operand text t)
    (hrest : Stops prolongs rest) : Reads (operand? (text ++ rest)) t rest :=
  (complete_of_operand h).reads rest hrest

end TableCalc.Directive
