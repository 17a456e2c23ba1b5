import TableCalc.Directive.Reader
import TableCalc.Proofs.Directive.Grammar
import TableCalc.Proofs.Text.Reading

/-!
The readers of directives, each in terms of the readers that it calls. What follows about directives
is derived from these statements alone.
-/

namespace TableCalc.Directive

open Text (Reads Leaves Stops)

variable {cs rest : List Char}

theorem isGap_iff (c : Char) : isGap c = true ↔ c = ' ' ∨ c = '\t' := by
  simp [isGap]

theorem gap_eq_iff :
    (gap cs).val = rest ↔ ∃ g, Grammar.Gap g ∧ cs = g ++ rest ∧ Stops isGap rest := by
  constructor
  · intro h
    obtain ⟨hsplit, hall, hstop⟩ := Text.many_eq_iff.mp ⟨rfl, h⟩
    exact ⟨_, fun c hc => (isGap_iff c).mp (hall c hc), hsplit, hstop⟩
  · rintro ⟨g, hg, hsplit, hstop⟩
    have hall : ∀ c ∈ g, isGap c = true := fun c hc => (isGap_iff c).mpr (hg c hc)
    exact (Text.many_eq_iff.mpr ⟨hsplit, hall, hstop⟩).2

theorem sign?_leaves {first : Char} {more : List Char} :
    Leaves (sign? first more cs) rest ↔
      ∃ mid, (gap cs).val = first :: more ++ mid ∧ (gap mid).val = rest := by
  simp only [sign?, Text.leaves_bind, Text.leaves_pure, Subtype.exists, Text.exists_leaves_and,
    Text.word?_leaves]

theorem withGaps?_reads {α : Type} {item? : (cs : List Char) → Option (α × Text.Rest cs)} {a : α} :
    Reads (withGaps? item? cs) a rest ↔
      ∃ mid, Reads (item? (gap cs).val) a mid ∧ (gap mid).val = rest := by
  simp only [withGaps?, Text.reads_bind, Text.reads_pure, Prod.exists, Subtype.exists]
  constructor
  · rintro ⟨b, mid, hmid, hb, rfl, h⟩
    exact ⟨mid, ⟨hmid, hb⟩, h⟩
  · rintro ⟨mid, ⟨hmid, hb⟩, h⟩
    exact ⟨a, mid, hmid, hb, rfl, h⟩

theorem digits?_reads {ds : List Char} :
    Reads (digits? cs) ds rest ↔ cs = ds ++ rest ∧ Grammar.Digits ds ∧ Stops Char.isDigit rest := by
  simp only [digits?, Text.some?_reads, Grammar.Digits, and_assoc]

theorem plusMinus?_reads {negative : Bool} :
    Reads (plusMinus? cs) negative rest ↔ cs = (if negative then '-' else '+') :: rest := by
  refine (Text.reads_map (f := (· == '-'))).trans ?_
  simp only [Text.one?_reads, Bool.or_eq_true, beq_iff_eq]
  constructor
  · rintro ⟨c, ⟨rfl, rfl | rfl⟩, rfl⟩
    · rfl
    · rfl
  · rintro rfl
    cases negative with
    | false => exact ⟨'+', ⟨rfl, .inl rfl⟩, rfl⟩
    | true => exact ⟨'-', ⟨rfl, .inr rfl⟩, rfl⟩

theorem offset?_reads {t : AddressTree} :
    Reads (offset? cs) t rest ↔
      ∃ negative mid, cs = (if negative then '-' else '+') :: mid ∧
        ∃ digits, Reads (digits? mid) digits rest ∧ .offset negative digits = t := by
  simp only [offset?, Text.reads_bind, Text.reads_pure, Prod.exists, Subtype.exists,
    Text.exists_reads_and, exists_eq_right_right, plusMinus?_reads]

theorem address?_reads {t : AddressTree} :
    Reads (address? cs) t rest ↔
      Reads (offset? cs) t rest ∨ offset? cs = none ∧
        (cs = '<' :: rest ∧ .first = t ∨ Text.char? '<' cs = none ∧
        (cs = '>' :: rest ∧ .last = t ∨ Text.char? '>' cs = none ∧
        (cs = 'I' :: rest ∧ .anchor = t ∨ Text.char? 'I' cs = none ∧
        ∃ digits, Reads (digits? cs) digits rest ∧ .index digits = t))) := by
  simp only [address?, Text.reads_orElse, Text.reads_map_leaves, Text.reads_map, Text.char?_leaves,
    Option.map_eq_none_iff]

theorem coordinate?_reads {axis : Axis} {t : AddressTree} :
    Reads (coordinate? axis cs) t rest ↔
      ∃ mid, cs = axis.sigil :: mid ∧ Reads (address? mid) t rest := by
  simp only [coordinate?, Text.reads_bind, Text.reads_pure, Prod.exists, Subtype.exists,
    Text.exists_leaves_and, Text.exists_reads_and, Text.char?_leaves, exists_eq_right_right,
    exists_eq_right]

theorem rowCell?_reads {t : CellTree} :
    Reads (rowCell? cs) t rest ↔
      ∃ r mid, Reads (coordinate? .row cs) r mid ∧
        ((∃ c, Reads (coordinate? .column mid) c rest ∧ .both r c = t) ∨
          coordinate? .column mid = none ∧ .row r = t ∧ mid = rest) := by
  rw [rowCell?]
  apply Text.reads_bind_optional
  · rintro r mid _ c left ⟨_, h⟩
    simp only [h]
    exact Text.reads_pure.mpr ⟨rfl, rfl⟩
  · intro r mid _ h
    simp only [h]
    exact Text.reads_pure.mpr ⟨rfl, rfl⟩

theorem cell?_reads {t : CellTree} :
    Reads (cell? cs) t rest ↔
      Reads (rowCell? cs) t rest ∨ rowCell? cs = none ∧
        ∃ c, Reads (coordinate? .column cs) c rest ∧ .column c = t := by
  simp only [cell?, Text.reads_orElse, Text.reads_map]

theorem rangeEnd?_reads {t : CellTree} :
    Reads (rangeEnd? cs) t rest ↔ ∃ mid, cs = '.' :: '.' :: mid ∧ Reads (cell? mid) t rest := by
  simp only [rangeEnd?, Text.reads_bind, Text.reads_pure, Prod.exists, Subtype.exists,
    Text.exists_leaves_and, Text.exists_reads_and, Text.word?_leaves, exists_eq_right_right,
    exists_eq_right, List.cons_append, List.nil_append]

theorem reference?_reads {t : ReferenceTree} :
    Reads (reference? cs) t rest ↔
      ∃ s mid, Reads (cell? cs) s mid ∧
        ((∃ f, Reads (rangeEnd? mid) f rest ∧ .range s f = t) ∨
          rangeEnd? mid = none ∧ .cell s = t ∧ mid = rest) := by
  rw [reference?]
  apply Text.reads_bind_optional
  · rintro s mid _ f left ⟨_, h⟩
    simp only [h]
    exact Text.reads_pure.mpr ⟨rfl, rfl⟩
  · intro s mid _ h
    simp only [h]
    exact Text.reads_pure.mpr ⟨rfl, rfl⟩

theorem fraction?_reads {fs : List Char} :
    Reads (fraction? cs) fs rest ↔
      ∃ mid, cs = '.' :: mid ∧ ∃ digits, Reads (digits? mid) digits rest ∧ '.' :: digits = fs := by
  simp only [fraction?, Text.reads_bind, Text.reads_pure, Prod.exists, Subtype.exists,
    Text.exists_leaves_and, Text.exists_reads_and, Text.char?_leaves, exists_eq_right_right]

theorem unsigned?_reads {n : List Char} :
    Reads (unsigned? cs) n rest ↔
      ∃ whole mid, Reads (digits? cs) whole mid ∧
        ((∃ fraction, Reads (fraction? mid) fraction rest ∧ whole ++ fraction = n) ∨
          fraction? mid = none ∧ whole = n ∧ mid = rest) := by
  rw [unsigned?]
  apply Text.reads_bind_optional
  · rintro whole mid _ fraction left ⟨_, h⟩
    simp only [h]
    exact Text.reads_pure.mpr ⟨rfl, rfl⟩
  · intro whole mid _ h
    simp only [h]
    exact Text.reads_pure.mpr ⟨rfl, rfl⟩

theorem number?_reads {t : OperandTree} :
    Reads (number? cs) t rest ↔
      (∃ mid, cs = '-' :: mid ∧
        ∃ n, Reads (unsigned? mid) n rest ∧ .number (.ofList ('-' :: n)) = t) ∨
      Text.char? '-' cs = none ∧ ∃ n, Reads (unsigned? cs) n rest ∧ .number (.ofList n) = t := by
  cases hsign : Text.char? '-' cs with
  | none =>
    have hno : ∀ mid, cs ≠ '-' :: mid := by
      intro mid h
      obtain ⟨_, hsome⟩ := Text.char?_leaves.mpr h
      rw [hsign] at hsome
      cases hsome
    simp only [number?, hsign, hno, false_and, exists_false, false_or, true_and]
    exact Text.reads_map (f := fun n => OperandTree.number (.ofList n))
  | some left =>
    have hcs : cs = '-' :: left.val := Text.char?_leaves.mp ⟨left.property, hsign⟩
    simp only [number?, hsign, Text.reads_bind, Text.reads_pure, Prod.exists, Subtype.exists,
      Text.exists_reads_and, exists_eq_right_right, reduceCtorEq, false_and, or_false]
    constructor
    · intro h
      exact ⟨left.val, hcs, h⟩
    · rintro ⟨mid, hmid, h⟩
      rw [hcs] at hmid
      cases hmid
      exact h

theorem text?_reads {t : OperandTree} :
    Reads (text? cs) t rest ↔
      ∃ text, cs = '"' :: text ++ '"' :: rest ∧ Grammar.Quotable text ∧
        .text (.ofList text) = t := by
  simp only [text?, Text.reads_bind, Text.reads_pure, Subtype.exists, Text.exists_leaves_and,
    Text.char?_leaves]
  constructor
  · rintro ⟨afterQuote, rfl, left, hleft, ht, rfl⟩
    obtain ⟨hsplit, hall, _⟩ := Text.many_eq_iff.mp ⟨rfl, hleft⟩
    exact ⟨_, congrArg ('"' :: ·) hsplit, fun c hc => bne_iff_ne.mp (hall c hc), ht⟩
  · rintro ⟨text, rfl, htext, ht⟩
    have hstop : Stops (· != '"') ('"' :: rest) := Text.stops_of_head rfl _
    obtain ⟨hfirst, hsecond⟩ := Text.many_eq_iff.mpr
      ⟨rfl, fun c hc => bne_iff_ne.mpr (htext c hc), hstop⟩
    refine ⟨_, rfl, rest, hsecond, ?_, rfl⟩
    rw [← ht]
    exact congrArg (fun cs => OperandTree.text (.ofList cs)) hfirst

theorem comparator?_reads {comparator : Comparator} :
    Reads (comparator? cs) comparator rest ↔
      cs = '>' :: '=' :: rest ∧ .ge = comparator ∨ Text.word? '>' ['='] cs = none ∧
        (cs = '<' :: '=' :: rest ∧ .le = comparator ∨ Text.word? '<' ['='] cs = none ∧
        (cs = '=' :: '=' :: rest ∧ .eq = comparator ∨ Text.word? '=' ['='] cs = none ∧
        (cs = '!' :: '=' :: rest ∧ .ne = comparator ∨ Text.word? '!' ['='] cs = none ∧
        (cs = '>' :: rest ∧ .gt = comparator ∨ Text.char? '>' cs = none ∧
        (cs = '<' :: rest ∧ .lt = comparator))))) := by
  simp only [comparator?, Text.reads_orElse, Text.reads_map_leaves, Text.char?_leaves,
    Text.word?_leaves, Option.map_eq_none_iff, List.cons_append, List.nil_append]

theorem operation?_reads {op : Operation} :
    Reads (operation? cs) op rest ↔
      cs = '+' :: rest ∧ .add = op ∨ Text.char? '+' cs = none ∧
        (cs = '-' :: rest ∧ .subtract = op ∨ Text.char? '-' cs = none ∧
        (cs = '*' :: rest ∧ .multiply = op ∨ Text.char? '*' cs = none ∧
        (cs = '/' :: rest ∧ .divide = op))) := by
  simp only [operation?, Text.reads_orElse, Text.reads_map_leaves, Text.char?_leaves,
    Option.map_eq_none_iff]

theorem isNameChar_iff (c : Char) : isNameChar c = true ↔ c.isAlphanum = true ∨ c = '_' := by
  simp [isNameChar]

theorem name?_reads {name : List Char} :
    Reads (name? cs) name rest ↔
      cs = name ++ rest ∧ Grammar.Name name ∧ Stops isNameChar rest := by
  simp only [name?, Text.reads_bind, Text.reads_pure, Prod.exists, Subtype.exists,
    Text.exists_reads_and, Text.one?_reads]
  constructor
  · rintro ⟨c, mid, ⟨rfl, hc⟩, rfl, h⟩
    obtain ⟨hsplit, hall, hstop⟩ := Text.many_eq_iff.mp ⟨rfl, h⟩
    exact ⟨congrArg (c :: ·) hsplit, .mk hc fun d hd => (isNameChar_iff d).mp (hall d hd), hstop⟩
  · rintro ⟨rfl, ⟨hc, hmore⟩, hstop⟩
    obtain ⟨hfirst, hsecond⟩ := Text.many_eq_iff.mpr
      ⟨rfl, fun d hd => (isNameChar_iff d).mpr (hmore d hd), hstop⟩
    exact ⟨_, _, ⟨rfl, hc⟩, congrArg (_ :: ·) hfirst, hsecond⟩

theorem callee?_reads {name : String} :
    Reads (callee? cs) name rest ↔
      ∃ chars mid, Reads (name? cs) chars ('(' :: mid) ∧ chars ≠ ['i', 'f'] ∧
        .ofList chars = name ∧ (gap mid).val = rest := by
  simp only [callee?, Text.reads_bind, Text.reads_pure, Text.reads_ite, Prod.exists, Subtype.exists,
    Text.exists_leaves_and, Text.exists_reads_and, Text.char?_leaves]
  constructor
  · rintro ⟨chars, _, hread, hif, mid, rfl, h⟩
    exact ⟨chars, mid, hread, hif, h⟩
  · rintro ⟨chars, mid, hread, hif, h⟩
    exact ⟨chars, _, hread, hif, mid, rfl, h⟩

theorem conditionalStart?_leaves :
    Leaves (conditionalStart? cs) rest ↔
      ∃ mid, cs = 'i' :: 'f' :: mid ∧ Leaves (sign? '(' [] mid) rest := by
  simp only [conditionalStart?, Text.leaves_bind, Text.leaves_pure, Subtype.exists,
    Text.exists_leaves_and, Text.word?_leaves, exists_eq_right, List.cons_append, List.nil_append]

theorem operand?_reads {t : OperandTree} :
    Reads (operand? cs) t rest ↔
      Reads (conditional? cs) t rest ∨ conditional? cs = none ∧
        (Reads (call? cs) t rest ∨ call? cs = none ∧
        ((∃ r, Reads (reference? cs) r rest ∧ .reference r = t) ∨ reference? cs = none ∧
        (Reads (group? cs) t rest ∨ group? cs = none ∧
        (Reads (number? cs) t rest ∨ number? cs = none ∧
        Reads (text? cs) t rest)))) := by
  rw [operand?]
  simp only [Text.reads_orElse, Text.reads_map, Option.map_eq_none_iff]

theorem conditional?_reads {t : OperandTree} :
    Reads (conditional? cs) t rest ↔
      ∃ c₁, Leaves (conditionalStart? cs) c₁ ∧
      ∃ l c₂, Reads (operand? c₁) l c₂ ∧
      ∃ comparator c₃, Reads (withGaps? comparator? c₂) comparator c₃ ∧
      ∃ r c₄, Reads (operand? c₃) r c₄ ∧
      ∃ c₅, Leaves (sign? ',' [] c₄) c₅ ∧
      ∃ th c₆, Reads (operand? c₅) th c₆ ∧
      ∃ c₇, Leaves (sign? ',' [] c₆) c₇ ∧
      ∃ e c₈, Reads (operand? c₇) e c₈ ∧ (gap c₈).val = ')' :: rest ∧
        .conditional l comparator r th e = t := by
  rw [conditional?]
  simp only [Text.reads_bind, Text.reads_pure, Prod.exists, Subtype.exists,
    Text.exists_leaves_and, Text.exists_reads_and, Text.char?_leaves, exists_eq_right_right]

theorem call?_reads {t : OperandTree} :
    Reads (call? cs) t rest ↔
      ∃ name c₁, Reads (callee? cs) name c₁ ∧
      ∃ argument c₂, Reads (operand? c₁) argument c₂ ∧ (gap c₂).val = ')' :: rest ∧
        .call name argument = t := by
  rw [call?]
  simp only [Text.reads_bind, Text.reads_pure, Prod.exists, Subtype.exists,
    Text.exists_leaves_and, Text.exists_reads_and, Text.char?_leaves, exists_eq_right_right]

theorem group?_reads {t : OperandTree} :
    Reads (group? cs) t rest ↔
      ∃ c₁, cs = '(' :: c₁ ∧
      ∃ head c₂, Reads (operand? (gap c₁).val) head c₂ ∧
        (gap (chain c₂).2.val).val = ')' :: rest ∧ .group head (chain c₂).1 = t := by
  rw [group?]
  simp only [Text.reads_bind, Text.reads_pure, Prod.exists, Subtype.exists,
    Text.exists_leaves_and, Text.exists_reads_and, Text.char?_leaves, exists_eq_right_right]

theorem link?_reads {op : Operation} {t : OperandTree} :
    Reads (link? cs) (op, t) rest ↔
      ∃ mid, Reads (withGaps? operation? cs) op mid ∧ Reads (operand? mid) t rest := by
  rw [link?]
  simp only [Text.reads_bind, Text.reads_pure, Prod.exists, Subtype.exists, Text.exists_reads_and,
    exists_eq_right_right, Prod.mk.injEq]
  constructor
  · rintro ⟨_, mid, hop, ht, rfl⟩
    exact ⟨mid, hop, ht⟩
  · rintro ⟨mid, hop, ht⟩
    exact ⟨op, mid, hop, ht, rfl⟩

theorem chain_of_none (h : link? cs = none) : chain cs = (.done, Text.unread cs) := by
  rw [chain, h]

theorem chain_of_reads {op : Operation} {t : OperandTree} (h : Reads (link? cs) (op, t) rest) :
    (chain cs).1 = .link op t (chain rest).1 ∧ (chain cs).2.val = (chain rest).2.val := by
  obtain ⟨_, h⟩ := h
  rw [chain, h]
  exact ⟨rfl, rfl⟩

theorem fixed?_reads {t : DisplayTree} :
    Reads (fixed? cs) t rest ↔
      ∃ mid, cs = '%' :: '.' :: mid ∧ ∃ digits, Reads (digits? mid) digits ('f' :: rest) ∧
        .fixed digits = t := by
  simp only [fixed?, Text.reads_bind, Text.reads_pure, Prod.exists, Subtype.exists,
    Text.exists_leaves_and, Text.exists_reads_and, Text.word?_leaves, Text.char?_leaves,
    exists_eq_right_right, List.cons_append, List.nil_append]
  constructor
  · rintro ⟨mid, hmid, digits, _, hdigits, rfl, ht⟩
    exact ⟨mid, hmid, digits, hdigits, ht⟩
  · rintro ⟨mid, hmid, digits, hdigits, ht⟩
    exact ⟨mid, hmid, digits, _, hdigits, rfl, ht⟩

theorem display?_reads {t : DisplayTree} :
    Reads (display? cs) t rest ↔
      Reads (fixed? cs) t rest ∨ fixed? cs = none ∧
        (cs = 'd' :: 't' :: rest ∧ .dateTime = t ∨ Text.word? 'd' ['t'] cs = none ∧
        (cs = 'h' :: 'm' :: rest ∧ .hoursMinutes = t)) := by
  simp only [display?, Text.reads_orElse, Text.reads_map_leaves, Text.word?_leaves,
    Option.map_eq_none_iff, List.cons_append, List.nil_append]

theorem displayPart?_reads {t : DisplayTree} :
    Reads (displayPart? cs) t rest ↔
      ∃ mid, Leaves (sign? ';' [] cs) mid ∧ Reads (display? mid) t rest := by
  simp only [displayPart?, Text.reads_bind, Text.reads_pure, Prod.exists, Subtype.exists,
    Text.exists_leaves_and, Text.exists_reads_and, exists_eq_right_right, exists_eq_right]

theorem formula?_reads {t : FormulaTree} :
    Reads (formula? cs) t rest ↔
      ∃ target c₁, Reads (reference? cs) target c₁ ∧
      ∃ c₂, Leaves (sign? '=' [] c₁) c₂ ∧
      ∃ operand c₃, Reads (operand? c₂) operand c₃ ∧
        ((∃ display, Reads (displayPart? c₃) display rest ∧
            ⟨consumed cs rest, target, operand, some display⟩ = t) ∨
          displayPart? c₃ = none ∧ ⟨consumed cs c₃, target, operand, none⟩ = t ∧ c₃ = rest) := by
  simp only [formula?, Text.reads_bind, Prod.exists, Subtype.exists]
  refine exists_congr fun target => exists_congr fun c₁ =>
    Iff.trans (exists_congr fun _ => and_congr_right fun _ => ?_) Text.exists_reads_and
  refine exists_congr fun c₂ =>
    Iff.trans (exists_congr fun _ => and_congr_right fun _ => ?_) Text.exists_leaves_and
  refine exists_congr fun operand => exists_congr fun c₃ =>
    Iff.trans (exists_congr fun _ => and_congr_right fun _ => ?_) Text.exists_reads_and
  apply Text.reads_optional
  · rintro display left ⟨_, h⟩
    rw [h]
    exact Text.reads_pure.mpr ⟨rfl, rfl⟩
  · intro h
    rw [h]
    exact Text.reads_pure.mpr ⟨rfl, rfl⟩

theorem nextFormula?_reads {t : FormulaTree} :
    Reads (nextFormula? cs) t rest ↔
      ∃ mid, Leaves (sign? ':' [':'] cs) mid ∧ Reads (formula? mid) t rest := by
  simp only [nextFormula?, Text.reads_bind, Text.reads_pure, Prod.exists, Subtype.exists,
    Text.exists_leaves_and, Text.exists_reads_and, exists_eq_right_right, exists_eq_right]

theorem moreFormulas_of_none (h : nextFormula? cs = none) :
    moreFormulas cs = ([], Text.unread cs) := by
  rw [moreFormulas, h]

theorem moreFormulas_of_reads {t : FormulaTree} (h : Reads (nextFormula? cs) t rest) :
    (moreFormulas cs).1 = t :: (moreFormulas rest).1 ∧
      (moreFormulas cs).2.val = (moreFormulas rest).2.val := by
  obtain ⟨_, h⟩ := h
  rw [moreFormulas, h]
  exact ⟨rfl, rfl⟩

theorem formulas?_reads {ts : List FormulaTree} :
    Reads (formulas? cs) ts rest ↔
      ∃ t mid, Reads (formula? cs) t mid ∧ t :: (moreFormulas mid).1 = ts ∧
        (moreFormulas mid).2.val = rest := by
  simp only [formulas?, Text.reads_bind, Text.reads_pure, Prod.exists, Subtype.exists,
    Text.exists_reads_and]

theorem wrapped?_reads {ts : List FormulaTree} :
    Reads (wrapped? cs) ts rest ↔
      ∃ c₁, cs = '<' :: '!' :: '-' :: '-' :: c₁ ∧
      ∃ c₂, Leaves (sign? 'T' ['B', 'L', 'F', 'M', ':'] c₁) c₂ ∧
      ∃ c₃, Reads (formulas? c₂) ts c₃ ∧ (gap c₃).val = '-' :: '-' :: '>' :: rest := by
  simp only [wrapped?, Text.reads_bind, Text.reads_pure, Prod.exists, Subtype.exists,
    Text.exists_leaves_and, Text.exists_reads_and, Text.word?_leaves, exists_eq_right_right,
    List.cons_append, List.nil_append]
  constructor
  · rintro ⟨c₁, hc₁, c₂, hc₂, _, c₃, hc₃, h, rfl⟩
    exact ⟨c₁, hc₁, c₂, hc₂, c₃, hc₃, h⟩
  · rintro ⟨c₁, hc₁, c₂, hc₂, c₃, hc₃, h⟩
    exact ⟨c₁, hc₁, c₂, hc₂, ts, c₃, hc₃, h, rfl⟩

theorem read?_eq_some_iff {ts : List FormulaTree} :
    read? cs = some ts ↔
      ∃ rest, (Reads (wrapped? (gap cs).val) ts rest ∨ wrapped? (gap cs).val = none ∧
        Reads (formulas? (gap cs).val) ts rest) ∧ (gap rest).val = [] := by
  simp only [← Text.reads_orElse, read?, Option.bind_eq_bind, Option.bind_eq_some_iff, Prod.exists,
    Subtype.exists, Option.pure_def]
  constructor
  · rintro ⟨_, rest, hrest, hread, h⟩
    split at h
    · next hend =>
      cases h
      exact ⟨rest, ⟨hrest, hread⟩, List.isEmpty_iff.mp hend⟩
    · cases h
  · rintro ⟨rest, ⟨hrest, hread⟩, hend⟩
    refine ⟨ts, rest, hrest, hread, ?_⟩
    rw [hend]
    rfl

end TableCalc.Directive
