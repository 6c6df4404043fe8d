import IpcPerformance.Benchmark.Statistics
import IpcPerformance.Library.Variance

/-! # The variance of the samples

The benchmarks keep their samples as `unsigned int`, and `Statistics::compute` takes them as `int` when
it adds up the squares: a sample of 2^31 or more is another number there than in the average.

* `Statistics.total_eq` — what the conversion adds to the squares.
* `Statistics.varianceExact_iff` — when the variance is that of the samples. -/

namespace IpcPerformance

namespace Statistics

variable {data : List ℕ}

/-- The samples of a benchmark, by their values. -/
def values (samples : List UInt32) : List ℕ := samples.map UInt32.toNat

/-- The samples as rational numbers. -/
def rationals (data : List ℕ) : List ℚ := data.map fun i : ℕ => (i : ℚ)

/-- The variance that `compute` returns. -/
def computedVariance (data : List ℕ) : Option ℚ := (compute data).bind Statistics.variance

/-- The samples that are too large for an `int`. -/
def large (data : List ℕ) : List ℕ := data.filter fun i => 2 ^ 31 ≤ i

/-- The large samples are, on the average, by 2^31 above the average of all; or there are none. -/
def Balanced (data : List ℕ) : Prop :=
  data.length * (large data).sum = (large data).length * (data.sum + data.length * 2 ^ 31)

instance (data : List ℕ) : Decidable (Balanced data) := inferInstanceAs (Decidable (_ = _))

/-- The variance is that of the samples, in both of its forms, it is zero only for equal samples, and it
does not change when a constant is added to all of them. -/
structure VarianceExact (samples : List UInt32) (c : UInt32) : Prop where
  deviations : computedVariance (values samples) = some (sampleVariance (rationals (values samples)))
  differences : computedVariance (values samples) = some (pairVariance (rationals (values samples)))
  eq_zero_iff : computedVariance (values samples) = some 0 ↔ ∀ x ∈ samples, ∀ y ∈ samples, x = y
  shift (h : ∀ x ∈ samples, x.toNat + c.toNat < 2 ^ 32) :
    computedVariance (values (samples.map (· + c))) = computedVariance (values samples)

/-- Samples that are not large are balanced. -/
theorem balanced_of_lt (h : ∀ i ∈ data, i < 2 ^ 31) : Balanced data := by
  have hlarge : large data = [] := List.filter_eq_nil_iff.mpr fun i hi => by simpa using h i hi
  rw [Balanced, hlarge, List.sum_nil, List.length_nil, Nat.mul_zero, Nat.zero_mul]

/-! ## What the conversion does -/

theorem mean_eq_arithmeticMean (data : List ℕ) : mean data = arithmeticMean (rationals data) := by
  rw [mean, arithmeticMean, rationals, List.length_map]

/-- The variance of a non-empty vector. -/
theorem computedVariance_eq (hdata : data ≠ []) :
    computedVariance data = divide (total data) (data.length - 1) := by
  obtain ⟨q1, h1, -⟩ := quantile_within hdata (q := 1 / 4) (by norm_num) (by norm_num)
  obtain ⟨q2, h2, -⟩ := quantile_within hdata (q := 1 / 2) (by norm_num) (by norm_num)
  obtain ⟨q3, h3, -⟩ := quantile_within hdata (q := 3 / 4) (by norm_num) (by norm_num)
  rw [computedVariance, compute_eq hdata h1 h2 h3]
  rfl

/-- A large sample becomes negative, the others stay what they are. -/
theorem toInt_eq {i : ℕ} (hi : i < 2 ^ 32) :
    toInt i = if 2 ^ 31 ≤ i then (i : ℤ) - 2 ^ 32 else (i : ℤ) := by
  unfold toInt
  rw [Int.bmod_def]
  push_cast
  split_ifs <;> omega

/-- The squared distances of the converted samples from a value. -/
theorem sum_toInt_sub (hdata : ∀ i ∈ data, i < 2 ^ 32) (m : ℚ) :
    (data.map fun i => ((toInt i : ℚ) - m) * ((toInt i : ℚ) - m)).sum =
      ((rationals data).map fun x => (x - m) ^ 2).sum +
        2 ^ 33 * ((large data).length * (2 ^ 31 + m) - (large data).sum) := by
  induction data with
  | nil => simp [rationals, large]
  | cons i data ih =>
      rw [List.forall_mem_cons] at hdata
      have hrest := ih hdata.2
      have hrationals : rationals (i :: data) = (i : ℚ) :: rationals data := rfl
      rw [List.map_cons, List.sum_cons, hrest, hrationals, List.map_cons, List.sum_cons,
        toInt_eq hdata.1]
      by_cases hlarge : 2 ^ 31 ≤ i
      · have hcons : large (i :: data) = i :: large data := by
          rw [large, List.filter_cons_of_pos (by simpa using hlarge), large]
        rw [if_pos hlarge, hcons, List.length_cons, List.sum_cons]
        push_cast
        ring
      · have hcons : large (i :: data) = large data := by
          rw [large, List.filter_cons_of_neg (by simpa using hlarge), large]
        rw [if_neg hlarge, hcons]
        push_cast
        ring

/-- **What the conversion adds**: nothing exactly for balanced samples. -/
theorem total_eq_iff (hne : data ≠ []) (hdata : ∀ i ∈ data, i < 2 ^ 32) :
    total data = ((rationals data).map fun x => (x - arithmeticMean (rationals data)) ^ 2).sum ↔
      Balanced data := by
  have hn : (data.length : ℚ) ≠ 0 := by exact_mod_cast (List.length_pos_of_ne_nil hne).ne'
  have hmean : mean data * data.length = (data.map Nat.cast).sum := div_mul_cancel₀ _ hn
  have hbalanced : Balanced data ↔
      (data.length : ℚ) * ((large data).length * (2 ^ 31 + mean data) - (large data).sum) = 0 := by
    unfold Balanced
    rw [← Nat.cast_inj (R := ℚ)]
    push_cast
    rw [← hmean]
    constructor <;> intro h <;> linear_combination -h
  rw [total, sum_toInt_sub hdata, mean_eq_arithmeticMean, add_eq_left, ← mean_eq_arithmeticMean, hbalanced,
    mul_eq_zero, mul_eq_zero, or_iff_right (by norm_num), or_iff_right hn]

/-- **When `compute` returns the sample variance.** -/
theorem computedVariance_eq_iff (hlen : 2 ≤ data.length) (hdata : ∀ i ∈ data, i < 2 ^ 32) :
    computedVariance data = some (sampleVariance (rationals data)) ↔ Balanced data := by
  have hne : data ≠ [] := List.ne_nil_of_length_pos (by omega)
  have hdiv : (data.length : ℚ) - 1 ≠ 0 := by
    rw [sub_ne_zero]
    exact_mod_cast (show data.length ≠ 1 by omega)
  have hlength : ((rationals data).length : ℚ) = data.length := by rw [rationals, List.length_map]
  rw [computedVariance_eq hne, divide, if_neg hdiv, Option.some_inj, sampleVariance, hlength,
    div_left_inj' hdiv, total_eq_iff hne hdata]

/-! ## The variance of samples -/

theorem lt_of_mem_values {samples : List UInt32} : ∀ i ∈ values samples, i < 2 ^ 32 := by
  intro i hi
  obtain ⟨x, -, rfl⟩ := List.mem_map.mp hi
  exact x.toNat_lt

/-- Samples are equal when their values are. -/
theorem forall_rationals_iff (samples : List UInt32) :
    (∀ x ∈ rationals (values samples), ∀ y ∈ rationals (values samples), x = y) ↔
      ∀ x ∈ samples, ∀ y ∈ samples, x = y := by
  simp [rationals, values, UInt32.toNat_inj]

/-- A constant that does not overflow is added to the values. -/
theorem rationals_map_add {samples : List UInt32} {c : UInt32}
    (h : ∀ x ∈ samples, x.toNat + c.toNat < 2 ^ 32) :
    rationals (values (samples.map (· + c))) =
      (rationals (values samples)).map (· + (c.toNat : ℚ)) := by
  rw [rationals, rationals, values, values, List.map_map, List.map_map, List.map_map, List.map_map]
  apply List.map_congr_left
  intro x hx
  simp only [Function.comp_apply]
  rw [UInt32.toNat_add, Nat.mod_eq_of_lt (h x hx), Nat.cast_add]

/-- **When the variance of at least two samples is exact**: when the large ones balance each other, in
the samples as they are and with the constant added. -/
theorem varianceExact_iff {samples : List UInt32} (hlen : 2 ≤ samples.length) (c : UInt32) :
    VarianceExact samples c ↔ Balanced (values samples) ∧
      ((∀ x ∈ samples, x.toNat + c.toNat < 2 ^ 32) → Balanced (values (samples.map (· + c)))) := by
  have hlen' : 2 ≤ (values samples).length := by rwa [values, List.length_map]
  have hshifted : 2 ≤ (values (samples.map (· + c))).length := by
    rwa [values, List.length_map, List.length_map]
  have hrationals : 2 ≤ (rationals (values samples)).length := by rwa [rationals, List.length_map]
  have hne : rationals (values samples) ≠ [] := List.ne_nil_of_length_pos (by omega)
  have hexact := computedVariance_eq_iff hlen' lt_of_mem_values
  have hexact' := computedVariance_eq_iff hshifted lt_of_mem_values
  have hmoved : (∀ x ∈ samples, x.toNat + c.toNat < 2 ^ 32) →
      sampleVariance (rationals (values (samples.map (· + c)))) =
        sampleVariance (rationals (values samples)) := by
    intro h
    rw [rationals_map_add h, sampleVariance_map_add hne]
  constructor
  · intro h
    refine ⟨hexact.mp h.deviations, ?_⟩
    intro hc
    rw [← hexact', h.shift hc, h.deviations, hmoved hc]
  · rintro ⟨hbalanced, hbalanced'⟩
    have hvariance := hexact.mpr hbalanced
    refine ⟨hvariance, ?_, ?_, ?_⟩
    · rw [hvariance, sampleVariance_eq_pairVariance hne]
    · rw [hvariance, Option.some_inj, sampleVariance_eq_zero_iff hrationals, forall_rationals_iff]
    · intro hc
      rw [hvariance, hexact'.mpr (hbalanced' hc), hmoved hc]

/-- Two samples, of half a second and a bit more. -/
def halfSecond : List UInt32 := [500000000, 600000000]

/-- Their variance is exact, also with a third of a second added, when they are balanced. -/
theorem varianceExact_iff_halfSecond :
    VarianceExact halfSecond 300000000 ↔ Balanced (values halfSecond) ∧
      ((∀ x ∈ halfSecond, x.toNat + (300000000 : UInt32).toNat < 2 ^ 32) →
        Balanced (values (halfSecond.map (· + 300000000)))) :=
  varianceExact_iff (by decide) 300000000

/-- Two equal samples of more than two seconds have a variance. -/
theorem not_varianceExact_threeSeconds :
    ¬ ∀ (samples : List UInt32) (c : UInt32), 2 ≤ samples.length → VarianceExact samples c := by
  intro h
  have hexact := (h [3000000000, 3000000000] 0 (by decide)).deviations
  rw [computedVariance_eq_iff (by decide) lt_of_mem_values] at hexact
  exact absurd hexact (by decide)

end Statistics

end IpcPerformance
