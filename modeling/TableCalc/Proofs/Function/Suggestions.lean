import TableCalc.Proofs.Function.Similarity
import TableCalc.Proofs.Function.Standard

/-!
Names that are suggested, used as names. What is suggested is the key of a function, its name in
lower case, while a call has to give the name as the function has it. So a suggestion can be used
just if the function has its name in lower case.
-/

namespace TableCalc

namespace Text

open Directive (isNameChar isNameChar_iff isNameChar_of_name)

theorem toNat_lt_of_isNameChar {c : Char} (h : isNameChar c = true) : c.toNat < 128 := by
  have hupper (hc : c.isUpper = true) : c.toNat ≤ 90 :=
    UInt32.le_iff_toNat_le.mp (of_decide_eq_true hc).2
  have hlower (hc : c.isLower = true) : c.toNat ≤ 122 :=
    UInt32.le_iff_toNat_le.mp (of_decide_eq_true ((Bool.and_eq_true _ _).mp hc).2)
  have hdigit (hc : c.isDigit = true) : c.toNat ≤ 57 := (Char.isDigit_iff_toNat.mp hc).2
  rcases (isNameChar_iff c).mp h with halphanum | rfl
  · rcases (Bool.or_eq_true _ _).mp halphanum with halpha | hc
    · rcases (Bool.or_eq_true _ _).mp halpha with hc | hc
      · exact Nat.lt_of_le_of_lt (hupper hc) (by decide)
      · exact Nat.lt_of_le_of_lt (hlower hc) (by decide)
    · exact Nat.lt_of_le_of_lt (hdigit hc) (by decide)
  · decide

/-- A character that is lowered to one character of the same kind, which is not lowered further. -/
structure LowersOnce (c : Char) : Prop where
  chars : lowerChar c = [c.toLower]
  isNameChar : isNameChar c.toLower = true
  isAlpha : c.toLower.isAlpha = c.isAlpha
  again : c.toLower.toLower = c.toLower

/-- The characters of names are of ASCII, so all of them can be checked. -/
theorem lowersOnce_of_isNameChar {c : Char} (h : isNameChar c = true) : LowersOnce c := by
  have hascii : ∀ n < 128, isNameChar (.ofNat n) = true →
      lowerChar (.ofNat n) = [(Char.ofNat n).toLower] ∧
        isNameChar (Char.ofNat n).toLower = true ∧
        (Char.ofNat n).toLower.isAlpha = (Char.ofNat n).isAlpha ∧
        (Char.ofNat n).toLower.toLower = (Char.ofNat n).toLower := by
    decide +kernel
  have hc := hascii c.toNat (toNat_lt_of_isNameChar h)
  rw [Char.ofNat_toNat] at hc
  obtain ⟨hchars, hname, halpha, hagain⟩ := hc h
  exact ⟨hchars, hname, halpha, hagain⟩

theorem lowerAfter_of_isNameChar {before cs : List Char} (h : ∀ c ∈ cs, isNameChar c = true) :
    lowerAfter before cs = cs.map Char.toLower := by
  induction cs generalizing before with
  | nil => rfl
  | cons c cs ih =>
    rw [List.forall_mem_cons] at h
    have hsigma : ¬ (c == 'Σ') = true := by
      rw [beq_iff_eq]
      rintro rfl
      cases h.1
    rw [lowerAfter, if_neg hsigma, (lowersOnce_of_isNameChar h.1).chars, ih h.2]
    rfl

theorem toList_lower {name : String} (h : Directive.Grammar.Name name.toList) :
    (lower name).toList = name.toList.map Char.toLower := by
  rw [lower, String.toList_ofList, lowerAfter_of_isNameChar (isNameChar_of_name h)]

end Text

namespace Directive.Grammar

theorem Name.map_toLower {cs : List Char} (h : Name cs) : Name (cs.map Char.toLower) := by
  have hchars := isNameChar_of_name h
  obtain ⟨hc, _⟩ := h
  rw [List.forall_mem_cons] at hchars
  refine .mk ((Text.lowersOnce_of_isNameChar hchars.1).isAlpha.trans hc) fun d hd => ?_
  obtain ⟨c, hcs, rfl⟩ := List.mem_map.mp hd
  exact (isNameChar_iff _).mp (Text.lowersOnce_of_isNameChar (hchars.2 c hcs)).isNameChar

/-- The lower case form of a name is a name. -/
theorem Name.lower {name : String} (h : Name name.toList) : Name (Text.lower name).toList := by
  rw [Text.toList_lower h]
  exact h.map_toLower

theorem Name.lower_lower {name : String} (h : Name name.toList) :
    Text.lower (Text.lower name) = Text.lower name := by
  rw [← String.toList_inj, Text.toList_lower h.lower, Text.toList_lower h, List.map_map]
  refine List.map_congr_left fun c hc => ?_
  exact (Text.lowersOnce_of_isNameChar (isNameChar_of_name h c hc)).again

end Directive.Grammar

namespace Directive

open Text (Reads)

variable {registry : Registry} {text : String} {expr : Expr}

theorem comparator?_closing {rest left : List Char} {comparator : Comparator} :
    ¬ Reads (withGaps? comparator? (')' :: rest)) comparator left := by
  intro hread
  obtain ⟨after, hread, _⟩ := withGaps?_reads.mp hread
  rw [gap_of_stops (Text.stops_of_head rfl _)] at hread
  obtain ⟨sign, hsign, hsplit⟩ := comparator?_splits hread
  cases hsign with
  | ge | le | eq | ne | gt | lt => cases hsplit

/-- Behind `if` a condition has to stand, and an operand alone is none. -/
theorem conditional?_if_eq_none (h : ReadsAs registry text expr) :
    conditional? (callOf "if" text).toList = none := by
  refine Text.eq_none_iff.mpr fun tree rest hread => ?_
  obtain ⟨g, cs, operand, hg, hsplit, hoperand, _⟩ := h.exists_operand
  have htext : (callOf "if" text).toList = 'i' :: 'f' :: '(' :: (g ++ (cs ++ [')'])) := by
    simp [toList_callOf, hsplit]
  rw [htext] at hread
  obtain ⟨_, hstart, _, c₂, hleft, _, _, hcomparator, _⟩ := conditional?_reads.mp hread
  obtain ⟨_, heq, hparen⟩ := conditionalStart?_leaves.mp hstart
  obtain rfl := (List.cons.inj (List.cons.inj heq).2).2
  obtain ⟨mid, heq, rfl⟩ := sign?_leaves.mp hparen
  rw [gap_of_stops (Text.stops_of_head rfl _)] at heq
  obtain rfl : g ++ (cs ++ [')']) = mid := (List.cons.inj heq).2
  rw [gap_append hg (stops_operand hoperand isGap_of_startsOperand _)] at hleft
  have hwhole := operand?_of_operand hoperand (Text.stops_of_head (c := ')') rfl [])
  obtain ⟨_, rfl⟩ := hleft.unique hwhole
  exact comparator?_closing hcomparator

theorem call?_if_eq_none (text : String) : call? (callOf "if" text).toList = none := by
  refine Text.eq_none_iff.mpr fun tree rest hread => ?_
  obtain ⟨_, _, hcallee, _⟩ := call?_reads.mp hread
  obtain ⟨chars, mid, hname, hif, _⟩ := callee?_reads.mp hcallee
  have hreserved : Grammar.Name ['i', 'f'] := .mk rfl (List.forall_mem_singleton.mpr (.inl rfl))
  have hwhole : Reads (name? (callOf "if" text).toList) ['i', 'f'] ('(' :: text.toList ++ [')']) :=
    name?_reads.mpr ⟨toList_callOf "if" text, hreserved, Text.stops_of_head rfl _⟩
  exact hif (hname.unique hwhole).1

/-- The name `if` cannot be called. -/
theorem ReadsAs.if_unreadable (h : ReadsAs registry text expr) (formulas : List Formula) :
    Formula.ofDirective registry (assignment (callOf "if" text)) ≠ .ok formulas := by
  intro hread
  obtain ⟨tree, rest, hoperand⟩ := exists_reads_operand hread (isTrimmed_call "if" text)
  have htext : (callOf "if" text).toList = 'i' :: 'f' :: '(' :: (text.toList ++ [')']) := by
    simp [toList_callOf]
  have hgap : (gap (callOf "if" text).toList).val = (callOf "if" text).toList := by
    rw [htext]
    exact gap_of_stops (Text.stops_of_head rfl _)
  rw [hgap] at hoperand
  -- besides conditions and calls, no operand starts with a letter
  rcases operand?_reads.mp hoperand with
    hread | ⟨-, hread | ⟨-, ⟨_, hread, _⟩ | ⟨-, hread | ⟨-, hread | ⟨-, hread⟩⟩⟩⟩⟩
  · exact Text.eq_none_iff.mp (conditional?_if_eq_none h) _ _ hread
  · exact Text.eq_none_iff.mp (call?_if_eq_none text) _ _ hread
  · rw [htext] at hread
    exact Text.eq_none_iff.mp (reference?_cons_eq_none (by decide) (by decide)) _ _ hread
  · rw [htext] at hread
    exact Text.eq_none_iff.mp (group?_cons_eq_none (by decide)) _ _ hread
  · rw [htext] at hread
    exact Text.eq_none_iff.mp (number?_cons_eq_none (by decide) rfl) _ _ hread
  · rw [htext] at hread
    obtain ⟨_, heq, _⟩ := text?_reads.mp hread
    cases heq

/-- A call is read just if a function has exactly its name, which is not `if`. -/
theorem ReadsAs.accepts_call_iff {name : String} (h : ReadsAs registry text expr)
    (hname : Grammar.Name name.toList) :
    (∃ formulas, Formula.ofDirective registry (assignment (callOf name text)) = .ok formulas) ↔
      name ≠ "if" ∧ registry.isExactName name = true := by
  constructor
  · rintro ⟨formulas, hread⟩
    have hif : name ≠ "if" := by
      rintro rfl
      exact h.if_unreadable formulas hread
    refine ⟨hif, ?_⟩
    by_contra hexact
    rw [h.refuses_call hname hif (Bool.eq_false_iff.mpr hexact)] at hread
    cases hread
  · rintro ⟨hif, hexact⟩
    exact ⟨_, h.call hname hif hexact⟩

end Directive

namespace Registry

variable {functions : List Function}

/-- The key of a function is its name in lower case. -/
theorem exists_of_mem_names {key : String} (h : key ∈ (ofList functions).names) :
    ∃ f ∈ functions, (key, f) ∈ (ofList functions).entries ∧ key = Text.lower f.info.name := by
  have hentries : ∀ entry ∈ (ofList functions).entries,
      entry.2 ∈ functions ∧ entry.1 = Text.lower entry.2.info.name :=
    forall_entries_ofList fun f hf => ⟨hf, rfl⟩
  obtain ⟨⟨key, f⟩, hentry, rfl⟩ := List.mem_map.mp h
  obtain ⟨hf, hkey⟩ := hentries _ hentry
  exact ⟨f, hf, hentry, hkey⟩

end Registry

open Directive

/-- What is suggested is the name of a function in lower case. A call by it is read just if this is
how the function has its name; otherwise the name of the function would be read, while the
suggestion is refused, with itself as the first suggestion unless it is `if`. -/
theorem Registry.suggestion_usable_iff (functions : List Function)
    (hnames : ∀ f ∈ functions, Grammar.Name f.info.name.toList ∧ f.info.name ≠ "if")
    (directive name text : String) (suggestions : List String)
    (h : Formula.ofDirective (ofList functions) directive =
      .error (.unknownFunction name text suggestions)) :
    ∀ s ∈ suggestions, ∃ f ∈ functions, (ofList functions).find? s = some f ∧
      s = Text.lower f.info.name ∧
      ∀ argument expr, ReadsAs (ofList functions) argument expr →
        ReadsAs (ofList functions) (callOf f.info.name argument) (.aggregate f.info.name expr) ∧
        ((∃ formulas, Formula.ofDirective (ofList functions) (assignment (callOf s argument)) =
          .ok formulas) ↔ s = f.info.name) ∧
        (s ≠ f.info.name → s ≠ "if" →
          ∃ others, Formula.ofDirective (ofList functions) (assignment (callOf s argument)) =
            .error (.unknownFunction s (assignment (callOf s argument)) (s :: others))) := by
  intro s hs
  obtain ⟨_, _, rfl⟩ := Formula.ofDirective_eq_unknownFunction_iff.mp h
  have hkey := (mem_similar_iff.mp (List.mem_of_mem_take hs)).1
  obtain ⟨f, hf, hentry, rfl⟩ := exists_of_mem_names hkey
  obtain ⟨hname, hif⟩ := hnames f hf
  have hlower : Text.lower (Text.lower f.info.name) = Text.lower f.info.name := hname.lower_lower
  have hfind : (ofList functions).find? (Text.lower f.info.name) = some f :=
    find?_eq_some_iff.mpr (by rw [hlower]; exact hentry)
  have hown : (ofList functions).isExactName f.info.name = true :=
    isExactName_iff.mpr ⟨f, find?_eq_some_iff.mpr hentry, rfl⟩
  have hexact : (ofList functions).isExactName (Text.lower f.info.name) = true ↔
      Text.lower f.info.name = f.info.name := by
    rw [isExactName_iff, hfind]
    simp [eq_comm]
  refine ⟨f, hf, hfind, rfl, fun argument expr hargument =>
    ⟨hargument.call hname hif hown, ?accepted, fun hne hreserved => ?refused⟩⟩
  case accepted =>
    rw [hargument.accepts_call_iff hname.lower, hexact]
    refine ⟨And.right, fun heq => ⟨?_, heq⟩⟩
    rw [heq]
    exact hif
  case refused =>
    have hunknown := Bool.eq_false_iff.mpr (mt hexact.mp hne)
    have hagain : Text.lower (Text.lower f.info.name) ∈ (ofList functions).names := by
      rw [hlower]
      exact hkey
    obtain ⟨others, hfirst⟩ := exists_similar_eq_cons hagain
    rw [hargument.refuses_call hname.lower hreserved hunknown, hfirst, hlower]
    exact ⟨_, rfl⟩

/-- A function with a name in capital letters and another one in small letters. Both are suggested,
but only one of the suggestions can be used. -/
theorem Registry.suggestion_usable_iff_capitals :
    let functions := ["TOTAL", "tally"].map Aggregate.sumAs
    let registry := Registry.ofList functions
    (∀ f ∈ functions, Grammar.Name f.info.name.toList ∧ f.info.name ≠ "if") ∧
      Formula.ofDirective registry "@1$1=tal(2)" =
        .error (.unknownFunction "tal" "@1$1=tal(2)" ["tally", "total"]) ∧
      (∃ formulas, Formula.ofDirective registry "@1$1=tally(2)" = .ok formulas) ∧
      ∃ others, Formula.ofDirective registry "@1$1=total(2)" =
        .error (.unknownFunction "total" "@1$1=total(2)" ("total" :: others)) := by
  intro functions registry
  have hnames : ∀ f ∈ functions, Grammar.Name f.info.name.toList ∧ f.info.name ≠ "if" := by
    decide +kernel
  have hsimilar : registry.similar "tal" = ["tally", "total"] :=
    similar_eq_of_ranked [("tally", 109), ("total", 59)] (by decide +kernel) (by decide +kernel)
  have hrefused : Formula.ofDirective registry "@1$1=tal(2)" =
      .error (.unknownFunction "tal" "@1$1=tal(2)" ["tally", "total"]) := by
    refine Formula.ofDirective_eq_unknownFunction_iff.mpr ⟨?_, ?_, ?_⟩
    · decide +kernel
    · decide +kernel
    · rw [hsimilar]
      rfl
  have hargument : ReadsAs registry "2" (.literal "2") := by decide +kernel
  have hlaws := suggestion_usable_iff functions hnames _ _ _ _ hrefused
  obtain ⟨f, _, hf, _, htally⟩ := hlaws "tally" (by simp)
  obtain ⟨g, _, hg, _, htotal⟩ := hlaws "total" (by simp)
  have hsmall : "tally" = f.info.name := by
    have hname : (registry.find? "tally").map (·.info.name) = some "tally" := by decide +kernel
    rw [hf] at hname
    exact (Option.some.inj hname).symm
  have hcapital : "TOTAL" = g.info.name := by
    have hname : (registry.find? "total").map (·.info.name) = some "TOTAL" := by decide +kernel
    rw [hg] at hname
    exact (Option.some.inj hname).symm
  have hne : "total" ≠ g.info.name := by
    rw [← hcapital]
    decide
  exact ⟨hnames, hrefused, (htally "2" _ hargument).2.1.mpr hsmall,
    (htotal "2" _ hargument).2.2 hne (by decide)⟩

/-- A function in capital letters is suggested for what its name is in small letters, and what is
suggested is what was refused. -/
theorem Registry.suggestion_unusable :
    let registry := Registry.ofList [Aggregate.sumAs "SUM"]
    (Grammar.Name "SUM".toList ∧ "SUM" ≠ "if") ∧
      Formula.ofDirective registry (assignment (callOf "sum" "1")) =
        .error (.unknownFunction "sum" (assignment (callOf "sum" "1")) ["sum"]) ∧
      ReadsAs registry (callOf "SUM" "1") (.aggregate "SUM" (.literal "1")) := by
  intro registry
  have hsimilar : registry.similar "sum" = ["sum"] :=
    similar_eq_of_ranked [("sum", 111)] (by decide +kernel) (by decide +kernel)
  refine ⟨by decide +kernel, Formula.ofDirective_eq_unknownFunction_iff.mpr ⟨?_, ?_, ?_⟩, ?_⟩
  · decide +kernel
  · decide +kernel
  · rw [hsimilar]
    rfl
  · decide +kernel

end TableCalc
