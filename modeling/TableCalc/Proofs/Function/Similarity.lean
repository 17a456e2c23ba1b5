import TableCalc.Function.Aggregate
import TableCalc.Proofs.Directive.Calls
import TableCalc.Proofs.Directive.Operands

/-!
Names that are suggested. Nothing scores as high as the name itself: only a longer name can start
with it, and the letters that a longer name adds count for nothing, while its length counts against
it. Suggestions are ranked by their scores, and then by the names.
-/

namespace TableCalc

namespace Similarity

section Parts

variable {query candidate : List Char}

theorem sharedCharacters_le (query candidate : List Char) :
    sharedCharacters query candidate ≤ query.eraseDups.length :=
  List.length_filter_le _ _

theorem sharedCharacters_self (query : List Char) :
    sharedCharacters query query = query.eraseDups.length := by
  rw [sharedCharacters, List.filter_eq_self.mpr]
  intro c hc
  exact List.contains_iff_mem.mpr (List.mem_eraseDups.mp hc)

theorem containment_of_start (h : query <+: candidate) : containment query candidate = 100 :=
  if_pos (List.isPrefixOf_iff_prefix.mpr h)

theorem containment_le_of_not_start (h : ¬ query <+: candidate) :
    containment query candidate ≤ 50 := by
  rw [containment, if_neg (mt List.isPrefixOf_iff_prefix.mp h)]
  split
  · exact Nat.le_refl _
  · split
    · exact Nat.le_of_ble_eq_true rfl
    · exact Nat.zero_le _

end Parts

variable {query candidate : String}

theorem score_le (query candidate : String) :
    score query candidate ≤
      containment query.toList candidate.toList + 2 * query.toList.eraseDups.length +
        (5 - lengthDifference query.utf8ByteSize candidate.utf8ByteSize) := by
  have hshared := sharedCharacters_le query.toList candidate.toList
  simp only [score]
  split
  · omega
  · omega

theorem score_self (query : String) :
    score query query = 105 + 2 * query.toList.eraseDups.length := by
  simp only [score, containment_of_start List.prefix_rfl, sharedCharacters_self, lengthDifference,
    Nat.max_self, Nat.min_self, Nat.sub_self]
  rw [if_pos]
  · omega
  · exact (Bool.and_eq_true _ _).mpr ⟨rfl, decide_eq_true (by omega)⟩

/-- A name that starts with another one is longer, unless it is the same. -/
theorem lengthDifference_pos_of_start (h : query.toList <+: candidate.toList)
    (hne : candidate ≠ query) :
    0 < lengthDifference query.utf8ByteSize candidate.utf8ByteSize := by
  obtain ⟨tail, htail⟩ := h
  have hcandidate : candidate = query ++ .ofList tail := by
    rw [← String.toList_inj, String.toList_append, String.toList_ofList, htail]
  have htailSize : (String.ofList tail).utf8ByteSize ≠ 0 := by
    rw [ne_eq, String.utf8ByteSize_eq_zero_iff]
    intro hempty
    rw [hempty, String.append_empty] at hcandidate
    exact hne hcandidate
  rw [hcandidate, String.utf8ByteSize_append, lengthDifference]
  omega

theorem score_lt_score_self (hne : candidate ≠ query) :
    score query candidate < score query query := by
  have hle := score_le query candidate
  rw [score_self]
  by_cases hstart : query.toList <+: candidate.toList
  · have hlonger := lengthDifference_pos_of_start hstart hne
    rw [containment_of_start hstart] at hle
    omega
  · have hcontainment := containment_le_of_not_start hstart
    omega

end Similarity

namespace Registry

open Similarity (score)

theorem rankedBefore_iff {a b : String × Nat} :
    rankedBefore a b = true ↔ b.2 < a.2 ∨ a.2 = b.2 ∧ a.1 ≤ b.1 := by
  simp [rankedBefore]

theorem pairwise_rankedBefore (scored : List (String × Nat)) :
    (scored.mergeSort rankedBefore).Pairwise fun a b => rankedBefore a b = true := by
  have htrans (a b c : String × Nat) (hab : rankedBefore a b = true)
      (hbc : rankedBefore b c = true) : rankedBefore a c = true := by
    rw [rankedBefore_iff] at hab hbc ⊢
    rcases hab with hab | ⟨hab, hnames⟩
    · omega
    · rcases hbc with hbc | ⟨hbc, hnames'⟩
      · omega
      · exact .inr ⟨hab.trans hbc, String.le_trans hnames hnames'⟩
  have htotal (a b : String × Nat) : (rankedBefore a b || rankedBefore b a) = true := by
    rw [Bool.or_eq_true, rankedBefore_iff, rankedBefore_iff]
    rcases Nat.lt_trichotomy a.2 b.2 with hlt | heq | hgt
    · exact .inr (.inl hlt)
    · exact (String.le_total a.1 b.1).imp (.inr ⟨heq, ·⟩) (.inr ⟨heq.symm, ·⟩)
    · exact .inl (.inl hgt)
  exact List.pairwise_mergeSort htrans htotal scored

variable {registry : Registry} {name : String}

/-- The names with their scores, without those that score nothing. -/
def scored (registry : Registry) (name : String) : List (String × Nat) :=
  (registry.names.map fun candidate => (candidate, score (Text.lower name) candidate)).filter
    (0 < ·.2)

theorem similar_eq (registry : Registry) (name : String) :
    registry.similar name = ((registry.scored name).mergeSort rankedBefore).map Prod.fst :=
  rfl

theorem mem_scored_iff {s : String} {n : Nat} :
    (s, n) ∈ registry.scored name ↔
      s ∈ registry.names ∧ score (Text.lower name) s = n ∧ 0 < n := by
  simp only [scored, List.mem_filter, List.mem_map, decide_eq_true_eq, Prod.mk.injEq]
  constructor
  · rintro ⟨⟨candidate, hmem, rfl, hscore⟩, hpos⟩
    exact ⟨hmem, hscore, hpos⟩
  · rintro ⟨hmem, hscore, hpos⟩
    exact ⟨⟨s, hmem, rfl, hscore⟩, hpos⟩

theorem mem_similar_iff {s : String} :
    s ∈ registry.similar name ↔ s ∈ registry.names ∧ 0 < score (Text.lower name) s := by
  rw [similar_eq, List.mem_map]
  constructor
  · rintro ⟨⟨candidate, n⟩, hranked, rfl⟩
    obtain ⟨hmem, rfl, hpos⟩ := mem_scored_iff.mp ((List.mergeSort_perm _ _).mem_iff.mp hranked)
    exact ⟨hmem, hpos⟩
  · rintro ⟨hmem, hpos⟩
    have hscored := mem_scored_iff.mpr ⟨hmem, rfl, hpos⟩
    exact ⟨_, (List.mergeSort_perm _ _).mem_iff.mpr hscored, rfl⟩

theorem nodup_similar (registry : Registry) (name : String) : (registry.similar name).Nodup := by
  have hsorted : ((registry.scored name).map Prod.fst).Nodup := by
    have hnames : ((registry.names.map fun candidate =>
        (candidate, score (Text.lower name) candidate)).map Prod.fst).Nodup := by
      rw [List.map_map]
      exact (List.map_id registry.names).symm ▸ registry.distinct
    exact (List.filter_sublist.map Prod.fst).nodup hnames
  rw [similar_eq]
  exact (((List.mergeSort_perm _ _).map Prod.fst).nodup_iff).mpr hsorted

/-- Falling scores, and names in order where scores are equal. -/
theorem pairwise_similar (registry : Registry) (name : String) :
    (registry.similar name).Pairwise fun s t =>
      score (Text.lower name) t < score (Text.lower name) s ∨
        score (Text.lower name) s = score (Text.lower name) t ∧ s < t := by
  have hranked : (registry.similar name).Pairwise fun s t =>
      score (Text.lower name) t < score (Text.lower name) s ∨
        score (Text.lower name) s = score (Text.lower name) t ∧ s ≤ t := by
    rw [similar_eq, List.pairwise_map]
    refine (pairwise_rankedBefore _).imp_of_mem ?_
    rintro ⟨s, m⟩ ⟨t, n⟩ hs ht hst
    obtain ⟨-, rfl, -⟩ := mem_scored_iff.mp ((List.mergeSort_perm _ _).mem_iff.mp hs)
    obtain ⟨-, rfl, -⟩ := mem_scored_iff.mp ((List.mergeSort_perm _ _).mem_iff.mp ht)
    simpa only [rankedBefore_iff] using hst
  refine (hranked.and (nodup_similar registry name)).imp ?_
  rintro s t ⟨hlt | ⟨heq, hle⟩, hne⟩
  · exact .inl hlt
  · exact .inr ⟨heq, Std.lt_of_le_of_ne hle hne⟩

/-- There is one way to rank the names that score. -/
theorem similar_eq_of_ranked (ranked : List (String × Nat))
    (hperm : ranked.Perm (registry.scored name))
    (hranked : ranked.Pairwise fun a b => rankedBefore a b = true) :
    registry.similar name = ranked.map Prod.fst := by
  have hantisymm : ∀ a b, a ∈ ranked → b ∈ (registry.scored name).mergeSort rankedBefore →
      rankedBefore a b = true → rankedBefore b a = true → a = b := by
    rintro ⟨s, m⟩ ⟨t, n⟩ _ _ hst hts
    rw [rankedBefore_iff] at hst hts
    rcases hst with hlt | ⟨hscore, hst⟩
    · omega
    · rcases hts with hlt | ⟨_, hts⟩
      · omega
      · exact Prod.ext (String.le_antisymm hst hts) hscore
  have hsorted := hperm.trans (List.mergeSort_perm _ rankedBefore).symm
  rw [similar_eq, ← hsorted.eq_of_pairwise hantisymm hranked (pairwise_rankedBefore _)]

/-- The name itself scores highest, so it comes first where it is registered. -/
theorem exists_similar_eq_cons (h : Text.lower name ∈ registry.names) :
    ∃ others, registry.similar name = Text.lower name :: others := by
  have hself : Text.lower name ∈ registry.similar name := by
    rw [mem_similar_iff, Similarity.score_self]
    exact ⟨h, by omega⟩
  have hranked := pairwise_similar registry name
  cases hsimilar : registry.similar name with
  | nil =>
    rw [hsimilar] at hself
    cases hself
  | cons first others =>
    rw [hsimilar] at hself hranked
    by_cases hne : first = Text.lower name
    · exact ⟨others, by rw [hne]⟩
    · have hbehind := List.rel_of_pairwise_cons hranked (List.mem_of_ne_of_mem (Ne.symm hne) hself)
      have hlt := Similarity.score_lt_score_self hne
      omega

end Registry

/-- What is suggested where a directive is refused for an unknown name. -/
theorem Formula.ofDirective_eq_unknownFunction_iff {registry : Registry}
    {directive name text : String} {suggestions : List String} :
    ofDirective registry directive = .error (.unknownFunction name text suggestions) ↔
      ((Directive.read? (Text.trim directive.toList)).map
          (·.mapM (Directive.FormulaTree.toFormula registry.isExactName)) =
        some (.error (.unknownFunction name))) ∧
      .ofList (Text.trim directive.toList) = text ∧
      (registry.similar name).take maxSuggestions = suggestions := by
  rw [ofDirective]
  cases Directive.read? (Text.trim directive.toList) with
  | none => simp
  | some trees =>
    simp only [Option.map_some, Option.some.injEq]
    cases trees.mapM (Directive.FormulaTree.toFormula registry.isExactName) with
    | ok formulas => simp [Except.mapError]
    | error fault =>
      cases fault with
      | unknownFunction other =>
        simp only [Except.mapError, Directive.Fault.toError, Except.error.injEq,
          FormulaError.unknownFunction.injEq, Directive.Fault.unknownFunction.injEq]
        exact and_congr_right fun hname => by rw [hname]
      | _ => simp [Except.mapError, Directive.Fault.toError]

namespace Directive

variable {registry : Registry} {name text : String} {expr : Expr}

theorem toFormula_call {tree : OperandTree} (h : registry.isExactName name = false) :
    (assignmentTree text (.call name tree)).toFormula registry.isExactName =
      .error (.unknownFunction name) := by
  have htarget : firstCell.toTarget = .ok firstCell.meaning :=
    ReferenceTree.toTarget_eq_ok_iff.mpr ⟨⟨fits_firstCell, isAbsolute_firstCell⟩, rfl⟩
  have hoperand : (OperandTree.call name tree).toExpr registry.isExactName =
      .error (.unknownFunction name) := by
    rw [OperandTree.toExpr, h]
    rfl
  rw [FormulaTree.toFormula, assignmentTree, htarget, hoperand]
  rfl

theorem isTrimmed_call (name text : String) :
    Text.IsTrimmed (assignment (callOf name text)).toList := by
  refine isTrimmed_assignment ?_
  rw [toList_callOf]
  exact endsVisibly_concat _ rfl

/-- A call is refused where no function has exactly its name. -/
theorem ReadsAs.refuses_call (h : ReadsAs registry text expr) (hname : Grammar.Name name.toList)
    (hif : name ≠ "if") (hexact : registry.isExactName name = false) :
    Formula.ofDirective registry (assignment (callOf name text)) =
      .error (.unknownFunction name (assignment (callOf name text))
        ((registry.similar name).take maxSuggestions)) := by
  obtain ⟨tree, _, _, hcall⟩ := h.exists_call hname hif
  refine Formula.ofDirective_eq_unknownFunction_iff.mpr ⟨?_, ?_, rfl⟩
  · rw [read?_eq_some_iff_root.mpr (root_assignment hcall), Option.map_some, List.mapM_cons,
      toFormula_call hexact]
    rfl
  · rw [Text.trim_eq_self (isTrimmed_call name text), String.ofList_toList]

end Directive

open Directive
open Similarity (score)

/-- Suggestions are the registered names that score, each of them once, in falling order of their
scores and then in the order of names. The name that differs from the wanted one in the case of its
letters alone comes first, also where a directive is refused, and a call that names no function
exactly is refused so. -/
theorem Registry.similar_ranked (registry : Registry) (name : String) :
    (registry.similar name).Nodup ∧
    (∀ s, s ∈ registry.similar name ↔ s ∈ registry.names ∧ 0 < score (Text.lower name) s) ∧
    ((registry.similar name).Pairwise fun s t =>
      score (Text.lower name) t < score (Text.lower name) s ∨
        score (Text.lower name) s = score (Text.lower name) t ∧ s < t) ∧
    (Text.lower name ∈ registry.names →
      (∃ others, registry.similar name = Text.lower name :: others) ∧
      (∀ directive text suggestions,
        Formula.ofDirective registry directive = .error (.unknownFunction name text suggestions) →
        ∃ others, suggestions = Text.lower name :: others) ∧
      ∀ argument expr, Grammar.Name name.toList → name ≠ "if" →
        registry.isExactName name = false → ReadsAs registry argument expr →
        ∃ others, Formula.ofDirective registry (assignment (callOf name argument)) =
          .error (.unknownFunction name (assignment (callOf name argument))
            (Text.lower name :: others))) := by
  refine ⟨nodup_similar registry name, fun s => mem_similar_iff, pairwise_similar registry name,
    fun hkey => ?_⟩
  obtain ⟨others, hfirst⟩ := exists_similar_eq_cons hkey
  have hsuggestions :
      (registry.similar name).take maxSuggestions = Text.lower name :: others.take 2 := by
    rw [hfirst]
    rfl
  refine ⟨⟨others, hfirst⟩, fun directive text suggestions h => ?_,
    fun argument expr hname hif hexact hargument => ?_⟩
  · obtain ⟨_, _, rfl⟩ := Formula.ofDirective_eq_unknownFunction_iff.mp h
    exact ⟨_, hsuggestions⟩
  · rw [hargument.refuses_call hname hif hexact, hsuggestions]
    exact ⟨_, rfl⟩

/-- The sum under another name. -/
def Aggregate.sumAs (name : String) : Function :=
  { sum with info := { sum.info with name := name } }

/-- Names that start alike, one of which the wanted one differs from in the case of its letters
alone. -/
theorem Registry.similar_ranked_case :
    let registry := Registry.ofList (["summary", "sum", "product", "sums"].map Aggregate.sumAs)
    registry.similar "SUM" = ["sum", "sums", "summary", "product"] ∧
      Formula.ofDirective registry " @2=SUM(@1)" =
        .error (.unknownFunction "SUM" "@2=SUM(@1)" ["sum", "sums", "summary"]) ∧
      (∃ others, ["sum", "sums", "summary"] = "sum" :: others) ∧
      ∃ others, Formula.ofDirective registry "@1$1=SUM(@2)" =
        .error (.unknownFunction "SUM" "@1$1=SUM(@2)" ("sum" :: others)) := by
  intro registry
  have hlower : Text.lower "SUM" = "sum" := by decide +kernel
  have hkey : "sum" ∈ registry.names := by decide +kernel
  have hsimilar : registry.similar "SUM" = ["sum", "sums", "summary", "product"] :=
    similar_eq_of_ranked [("sum", 111), ("sums", 110), ("summary", 107), ("product", 3)]
      (by decide +kernel) (by decide +kernel)
  have hname : Grammar.Name "SUM".toList := by decide +kernel
  have hargument : ReadsAs registry "@2" (.reference (.cell ⟨some (.index 2), none⟩)) := by
    decide +kernel
  have hrefused : Formula.ofDirective registry " @2=SUM(@1)" =
      .error (.unknownFunction "SUM" "@2=SUM(@1)" ["sum", "sums", "summary"]) := by
    refine Formula.ofDirective_eq_unknownFunction_iff.mpr ⟨?_, ?_, ?_⟩
    · decide +kernel
    · decide +kernel
    · rw [hsimilar]
      rfl
  have hlaws := (similar_ranked registry "SUM").2.2.2
  rw [hlower] at hlaws
  obtain ⟨_, hdirective, hcall⟩ := hlaws hkey
  exact ⟨hsimilar, hrefused, hdirective _ _ _ hrefused,
    hcall "@2" _ hname (by decide) (by decide +kernel) hargument⟩

end TableCalc
