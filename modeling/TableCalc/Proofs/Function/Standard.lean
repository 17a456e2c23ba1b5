import TableCalc.Function.Aggregate
import TableCalc.Proofs.Decimal.Scaling
import TableCalc.Proofs.Table.Shapes

/-!
The functions of a registry, and what those that are always there can fail with. Division is the only
calculation that has faults, by zero alone. No value is an empty selection, so that mean and median
always have a number of cells to divide by.
-/

namespace TableCalc

namespace Decimal

theorem divide_eq_error_iff {x y : Decimal} {fault : Fault} :
    divide x y = .error fault ↔ fault = .divisionByZero ∧ y = 0 := by
  rw [divide, ← isZero_iff]
  split
  · next hzero => simp [hzero, eq_comm]
  · next hzero => simp [hzero]

theorem divideTo_eq_error_iff {digits : Nat} {x y : Decimal} {fault : Fault} :
    divideTo digits x y = .error fault ↔ fault = .divisionByZero ∧ y = 0 := by
  rw [divideTo, bind_eq_error_iff, divide_eq_error_iff]
  refine or_iff_left ?_
  rintro ⟨q, _, h⟩
  split at h <;> cases h

theorem exists_divideTo {y : Decimal} (hy : y ≠ 0) (digits : Nat) (x : Decimal) :
    ∃ q, divideTo digits x y = .ok q := by
  cases h : divideTo digits x y with
  | error fault => exact absurd (divideTo_eq_error_iff.mp h).2 hy
  | ok q => exact ⟨q, rfl⟩

theorem exists_divide {y : Decimal} (hy : y ≠ 0) (x : Decimal) : ∃ q, divide x y = .ok q := by
  cases h : divide x y with
  | error fault => exact absurd (divide_eq_error_iff.mp h).2 hy
  | ok q => exact ⟨q, rfl⟩

end Decimal

/-- No key has two functions, so each entry is found. -/
theorem Registry.lookup_eq_some_iff {registry : Registry} {key : String} {f : Function} :
    registry.entries.lookup key = some f ↔ (key, f) ∈ registry.entries := by
  constructor
  · intro h
    obtain ⟨before, after, hentries, _⟩ := List.lookup_eq_some_iff.mp h
    simp [hentries]
  · intro h
    obtain ⟨before, after, hentries⟩ := List.append_of_mem h
    refine List.lookup_eq_some_iff.mpr ⟨before, after, hentries, fun entry hentry => ?_⟩
    have hdistinct := registry.distinct
    rw [hentries, List.map_append, List.map_cons, List.nodup_append] at hdistinct
    have hne := hdistinct.2.2 _ (List.mem_map_of_mem hentry) _ List.mem_cons_self
    exact bne_iff_ne.mpr hne.symm

theorem Registry.find?_eq_some_iff {registry : Registry} {name : String} {f : Function} :
    registry.find? name = some f ↔ (Text.lower name, f) ∈ registry.entries := lookup_eq_some_iff

/-- What a registry finds is one of its entries. -/
theorem Registry.mem_entries_of_find? {registry : Registry} {name : String} {f : Function}
    (h : registry.find? name = some f) : (Text.lower name, f) ∈ registry.entries :=
  find?_eq_some_iff.mp h

/-- A property of the entries that the functions make is one of all entries of their registry. -/
theorem Registry.forall_entries_ofList {R : String × Function → Prop} {functions : List Function}
    (h : ∀ f ∈ functions, R (Text.lower f.info.name, f)) :
    ∀ entry ∈ (Registry.ofList functions).entries, R entry := by
  have hfold {registry : Registry} (hregistry : ∀ entry ∈ registry.entries, R entry) :
      ∀ entry ∈ (functions.foldl Registry.insert registry).entries, R entry := by
    induction functions generalizing registry with
    | nil => exact hregistry
    | cons f rest ih =>
      rw [List.forall_mem_cons] at h
      apply ih h.2
      intro entry hentry
      rcases List.mem_append.mp hentry with hold | hnew
      · exact hregistry entry (List.mem_filter.mp hold).1
      · rw [List.mem_singleton.mp hnew]
        exact h.1
  exact hfold fun entry hentry => (List.not_mem_nil hentry).elim

/-- A function that makes a rectangle of every rectangle, without fail. -/
def Function.Total (f : Function) : Prop :=
  ∀ context input, input.Rectangular →
    ∃ output, f.call context input = .ok output ∧ output.Rectangular

namespace Aggregate

theorem total_sum : sum.Total := fun _ input _ => ⟨sumOf input, rfl, .ofDecimal _⟩

/-- The number of cells of a rectangle is not zero. -/
theorem total_mean : mean.Total := by
  intro context input hinput
  have hcount : (input.numbers.length : Int) ≠ 0 := by
    have hlength := List.length_pos_of_ne_nil hinput.numbers_ne_nil
    omega
  obtain ⟨q, hq⟩ := Decimal.exists_divideTo (Decimal.ofInt_ne_zero hcount) context.quotientDigits
    (Decimal.total input.numbers)
  refine ⟨.ofDecimal q, ?_, .ofDecimal q⟩
  change meanOf context.quotientDigits input = _
  simp only [meanOf, hq]
  rfl

theorem total_median : median.Total := by
  intro context input hinput
  change ∃ output, medianOf input = .ok output ∧ output.Rectangular
  have hcount : (ascending input.numbers).length ≠ 0 := by
    rw [ascending, List.length_mergeSort]
    exact Nat.ne_of_gt (List.length_pos_of_ne_nil hinput.numbers_ne_nil)
  simp only [medianOf, beq_iff_eq, hcount, if_false]
  split
  · exact ⟨_, rfl, .ofDecimal _⟩
  · have htwo : Decimal.ofInt 2 ≠ 0 := Decimal.ofInt_ne_zero (by decide)
    obtain ⟨half, hhalf⟩ := Decimal.exists_divide htwo
      ((ascending input.numbers)[(ascending input.numbers).length / 2 - 1]?.getD 0 +
        (ascending input.numbers)[(ascending input.numbers).length / 2]?.getD 0)
    refine ⟨.ofDecimal half, ?_, .ofDecimal half⟩
    rw [hhalf]
    rfl

end Aggregate

/-- A registry of functions that never fail on rectangles. -/
def Registry.Total (registry : Registry) : Prop := ∀ entry ∈ registry.entries, entry.2.Total

namespace Registry

theorem total_standard : Registry.standard.Total := by
  apply forall_entries_ofList
  simp only [List.forall_mem_cons, List.not_mem_nil, false_implies, implies_true, and_true]
  exact ⟨Aggregate.total_sum, Aggregate.total_mean, Aggregate.total_median⟩

variable {registry : Registry} (htotal : registry.Total)

include htotal

theorem Total.call {quotientDigits : Nat} {name : String} {f : Function} {input : Grid}
    (hf : registry.find? name = some f) (hinput : input.Rectangular) :
    ∃ output, registry.call quotientDigits name input = .ok output ∧ output.Rectangular := by
  rw [Registry.call, callIn, hf]
  exact htotal _ (mem_entries_of_find? hf) _ input hinput

theorem Total.rectangular_of_call {quotientDigits : Nat} {name : String} {input output : Grid}
    (hinput : input.Rectangular) (h : registry.call quotientDigits name input = .ok output) :
    output.Rectangular := by
  cases hf : registry.find? name with
  | none =>
    rw [Registry.call, callIn, hf] at h
    cases h
  | some f =>
    obtain ⟨output', houtput, hrectangular⟩ := htotal.call hf hinput
    rw [h] at houtput
    cases houtput
    exact hrectangular

end Registry

end TableCalc
