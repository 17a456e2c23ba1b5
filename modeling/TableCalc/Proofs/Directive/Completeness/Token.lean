import TableCalc.Proofs.Directive.Ends

/-!
Signs, references, numbers and texts are read wherever they are derivable. The choices of the
readers are ordered and their repetitions are greedy, so each statement says what may stand behind
the text; no directive puts anything else there.
-/

namespace TableCalc.Directive

open Text (Reads Leaves Stops ne_of_class ne_cons_of_stops char?_cons_eq_none word?_eq_none
  word?_cons_eq_none)

variable {rest : List Char}

theorem sign?_of_spaced {c : Char} {more text : List Char} (hc : isGap c = false)
    (h : Grammar.Spaced (c :: more) text) (hrest : Stops isGap rest) :
    Leaves (sign? c more (text ++ rest)) rest := by
  obtain ⟨hbefore, hafter⟩ := h
  refine sign?_leaves.mpr ⟨_, ?_, gap_append hafter hrest⟩
  rw [List.append_assoc, List.append_assoc]
  exact gap_append hbefore (Text.stops_of_head hc _)

theorem withGaps?_of_spaced {α : Type} {item? : (cs : List Char) → Option (α × Text.Rest cs)}
    {sign text : List Char} {a : α} (h : Grammar.Spaced sign text)
    (hsign : ∀ tail, Stops isGap (sign ++ tail)) (hrest : Stops isGap rest)
    (hitem : ∀ after, Grammar.Gap after →
      Reads (item? (sign ++ (after ++ rest))) a (after ++ rest)) :
    Reads (withGaps? item? (text ++ rest)) a rest := by
  obtain ⟨hbefore, hafter⟩ := h
  refine withGaps?_reads.mpr ⟨_, ?_, gap_append hafter hrest⟩
  rw [List.append_assoc, List.append_assoc, gap_append hbefore (hsign _)]
  exact hitem _ hafter

theorem digits?_of_digits {ds : List Char} (h : Grammar.Digits ds)
    (hrest : Stops Char.isDigit rest) : Reads (digits? (ds ++ rest)) ds rest :=
  digits?_reads.mpr ⟨rfl, h, hrest⟩

theorem offset?_eq_none {c : Char} {cs : List Char} (hplus : c ≠ '+') (hminus : c ≠ '-') :
    offset? (c :: cs) = none := by
  refine Text.eq_none_iff.mpr fun t rest h => ?_
  obtain ⟨negative, mid, hcs, _⟩ := offset?_reads.mp h
  cases negative with
  | false => exact hplus (List.cons.inj hcs).1
  | true => exact hminus (List.cons.inj hcs).1

theorem address?_of_address {text : List Char} {t : AddressTree} (h : Grammar.Address text t)
    (hrest : Stops Char.isDigit rest) : Reads (address? (text ++ rest)) t rest := by
  rw [address?_reads]
  cases h with
  | plus hd =>
    exact .inl (offset?_reads.mpr ⟨false, _, rfl, _, digits?_of_digits hd hrest, rfl⟩)
  | minus hd =>
    exact .inl (offset?_reads.mpr ⟨true, _, rfl, _, digits?_of_digits hd hrest, rfl⟩)
  | first => exact .inr ⟨offset?_eq_none (by decide) (by decide), .inl ⟨rfl, rfl⟩⟩
  | last =>
    exact .inr ⟨offset?_eq_none (by decide) (by decide),
      .inr ⟨char?_cons_eq_none (by decide), .inl ⟨rfl, rfl⟩⟩⟩
  | anchor =>
    exact .inr ⟨offset?_eq_none (by decide) (by decide),
      .inr ⟨char?_cons_eq_none (by decide), .inr ⟨char?_cons_eq_none (by decide), .inl ⟨rfl, rfl⟩⟩⟩⟩
  | index hd =>
    have hread := digits?_of_digits hd hrest
    obtain ⟨d, more, rfl, hdigit⟩ := digits_head hd
    have hne : ∀ c, c.isDigit = false → d ≠ c := fun c hc => ne_of_class hdigit hc
    exact .inr ⟨offset?_eq_none (hne _ rfl) (hne _ rfl), .inr ⟨char?_cons_eq_none (hne _ rfl),
      .inr ⟨char?_cons_eq_none (hne _ rfl), .inr ⟨char?_cons_eq_none (hne _ rfl), _, hread, rfl⟩⟩⟩⟩

theorem coordinate?_of_address (axis : Axis) {text : List Char} {t : AddressTree}
    (h : Grammar.Address text t) (hrest : Stops Char.isDigit rest) :
    Reads (coordinate? axis (axis.sigil :: text ++ rest)) t rest :=
  coordinate?_reads.mpr ⟨_, rfl, address?_of_address h hrest⟩

theorem coordinate?_eq_none {axis : Axis} {cs : List Char} (h : ∀ rest, cs ≠ axis.sigil :: rest) :
    coordinate? axis cs = none := by
  refine Text.eq_none_iff.mpr fun t rest hread => ?_
  obtain ⟨mid, hcs, _⟩ := coordinate?_reads.mp hread
  exact h mid hcs

theorem rowCell?_eq_none {c : Char} {cs : List Char} (h : c ≠ '@') : rowCell? (c :: cs) = none := by
  refine Text.eq_none_iff.mpr fun t rest hread => ?_
  obtain ⟨r, mid, hrow, _⟩ := rowCell?_reads.mp hread
  obtain ⟨_, hcs, _⟩ := coordinate?_reads.mp hrow
  exact h (List.cons.inj hcs).1

theorem cell?_of_cell {text : List Char} {t : CellTree} (h : Grammar.Cell text t)
    (hdigit : Stops Char.isDigit rest) (hcolumn : ∀ tail, rest ≠ '$' :: tail) :
    Reads (cell? (text ++ rest)) t rest := by
  rw [cell?_reads]
  cases h with
  | row hr =>
    exact .inl (rowCell?_reads.mpr ⟨_, rest, coordinate?_of_address .row hr hdigit,
      .inr ⟨coordinate?_eq_none hcolumn, rfl, rfl⟩⟩)
  | both hr hc =>
    rename_i rs cs r c
    have hrow : Reads (coordinate? .row ('@' :: rs ++ ('$' :: cs ++ rest))) r ('$' :: cs ++ rest) :=
      coordinate?_of_address .row hr (Text.stops_of_head rfl _)
    have hcol : Reads (coordinate? .column ('$' :: cs ++ rest)) c rest :=
      coordinate?_of_address .column hc hdigit
    rw [List.append_assoc]
    exact .inl (rowCell?_reads.mpr ⟨_, _, hrow, .inl ⟨_, hcol, rfl⟩⟩)
  | column hc =>
    exact .inr ⟨rowCell?_eq_none (by decide), _, coordinate?_of_address .column hc hdigit,
      rfl⟩

theorem reference?_of_reference {text : List Char} {t : ReferenceTree}
    (h : Grammar.Reference text t) (hrest : Stops prolongs rest) :
    Reads (reference? (text ++ rest)) t rest := by
  have hcell : ∀ {text t}, Grammar.Cell text t → Reads (cell? (text ++ rest)) t rest :=
    fun h => cell?_of_cell h (stops_isDigit hrest) fun _ => ne_cons_of_stops hrest rfl
  rw [reference?_reads]
  cases h with
  | range hs hf =>
    rename_i ss fs s f
    rw [List.append_assoc]
    have hstart : Reads (cell? (ss ++ ('.' :: '.' :: fs ++ rest))) s ('.' :: '.' :: fs ++ rest) :=
      cell?_of_cell hs (Text.stops_of_head rfl _) (by simp)
    have hend : Reads (rangeEnd? ('.' :: '.' :: fs ++ rest)) f rest :=
      rangeEnd?_reads.mpr ⟨_, rfl, hcell hf⟩
    exact ⟨s, _, hstart, .inl ⟨f, hend, rfl⟩⟩
  | cell hc =>
    have hend : rangeEnd? rest = none := by
      refine Text.eq_none_iff.mpr fun f left hread => ?_
      obtain ⟨mid, hdots, _⟩ := rangeEnd?_reads.mp hread
      exact ne_cons_of_stops hrest rfl hdots
    exact ⟨_, _, hcell hc, .inr ⟨hend, rfl, rfl⟩⟩

theorem unsigned?_of_unsigned {text : List Char} (h : Grammar.Unsigned text)
    (hrest : Stops prolongs rest) : Reads (unsigned? (text ++ rest)) text rest := by
  have hdigits : ∀ {ds}, Grammar.Digits ds → Reads (digits? (ds ++ rest)) ds rest :=
    fun hd => digits?_of_digits hd (stops_isDigit hrest)
  rw [unsigned?_reads]
  cases h with
  | whole hd =>
    have hfraction : fraction? rest = none := by
      refine Text.eq_none_iff.mpr fun fs left hread => ?_
      obtain ⟨mid, hpoint, _⟩ := fraction?_reads.mp hread
      exact ne_cons_of_stops hrest rfl hpoint
    exact ⟨_, _, hdigits hd, .inr ⟨hfraction, rfl, rfl⟩⟩
  | fraction hd hf =>
    rename_i ds fs
    rw [List.append_assoc]
    have hwhole : Reads (digits? (ds ++ ('.' :: fs ++ rest))) ds ('.' :: fs ++ rest) :=
      digits?_of_digits hd (Text.stops_of_head rfl _)
    have hfraction : Reads (fraction? ('.' :: fs ++ rest)) ('.' :: fs) rest :=
      fraction?_reads.mpr ⟨_, rfl, _, hdigits hf, rfl⟩
    exact ⟨_, _, hwhole, .inl ⟨_, hfraction, rfl⟩⟩

theorem number?_of_number {text : List Char} (h : Grammar.Number text)
    (hrest : Stops prolongs rest) :
    Reads (number? (text ++ rest)) (.number (.ofList text)) rest := by
  rw [number?_reads]
  cases h with
  | plain h =>
    have hread := unsigned?_of_unsigned h hrest
    obtain ⟨d, more, rfl, hdigit⟩ := unsigned_head h
    exact .inr ⟨char?_cons_eq_none (ne_of_class hdigit rfl), _, hread, rfl⟩
  | negative h => exact .inl ⟨_, rfl, _, unsigned?_of_unsigned h hrest, rfl⟩

theorem text?_of_quotable {text : List Char} (h : Grammar.Quotable text) :
    Reads (text? ('"' :: text ++ ['"'] ++ rest)) (.text (.ofList text)) rest := by
  refine text?_reads.mpr ⟨text, ?_, h, rfl⟩
  simp

theorem comparator?_of_comparison {sign : List Char} {comparator : Comparator}
    (h : Grammar.Comparison sign comparator) (hrest : ∀ tail, rest ≠ '=' :: tail) :
    Reads (comparator? (sign ++ rest)) comparator rest := by
  have hlong : ∀ c d, Text.word? c ['='] (d :: rest) = none := fun c d =>
    word?_eq_none fun tail hcs => hrest tail (List.cons.inj hcs).2
  have hother : ∀ {c d : Char} {cs : List Char}, d ≠ c → Text.word? c ['='] (d :: cs) = none :=
    word?_cons_eq_none
  rw [comparator?_reads]
  cases h with
  | ge => exact .inl ⟨rfl, rfl⟩
  | le => exact .inr ⟨hother (by decide), .inl ⟨rfl, rfl⟩⟩
  | eq => exact .inr ⟨hother (by decide), .inr ⟨hother (by decide), .inl ⟨rfl, rfl⟩⟩⟩
  | ne =>
    exact .inr ⟨hother (by decide), .inr ⟨hother (by decide), .inr ⟨hother (by decide),
      .inl ⟨rfl, rfl⟩⟩⟩⟩
  | gt =>
    exact .inr ⟨hlong _ _, .inr ⟨hlong _ _, .inr ⟨hlong _ _, .inr ⟨hlong _ _, .inl ⟨rfl, rfl⟩⟩⟩⟩⟩
  | lt =>
    exact .inr ⟨hlong _ _, .inr ⟨hlong _ _, .inr ⟨hlong _ _, .inr ⟨hlong _ _,
      .inr ⟨char?_cons_eq_none (by decide), rfl, rfl⟩⟩⟩⟩⟩

theorem operation?_of_sign {sign : List Char} {op : Operation} (h : Grammar.Sign sign op)
    (rest : List Char) : Reads (operation? (sign ++ rest)) op rest := by
  rw [operation?_reads]
  cases h with
  | add => exact .inl ⟨rfl, rfl⟩
  | subtract => exact .inr ⟨char?_cons_eq_none (by decide), .inl ⟨rfl, rfl⟩⟩
  | multiply =>
    exact .inr ⟨char?_cons_eq_none (by decide), .inr ⟨char?_cons_eq_none (by decide),
      .inl ⟨rfl, rfl⟩⟩⟩
  | divide =>
    exact .inr ⟨char?_cons_eq_none (by decide), .inr ⟨char?_cons_eq_none (by decide),
      .inr ⟨char?_cons_eq_none (by decide), rfl, rfl⟩⟩⟩

end TableCalc.Directive
