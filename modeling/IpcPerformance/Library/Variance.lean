import Mathlib

/-! # Sample variance

The variance of a list of samples, and how it can be computed from their differences alone.

* `sampleVariance_eq_pairVariance` — the squared deviations from the average against the squared
  differences of the pairs.
* `sampleVariance_eq_zero_iff`, `sampleVariance_map_add` — which samples have no variance, and that it
  does not depend on where they are. -/

variable {K : Type*} [Field K]

/-- The average of the samples. -/
def arithmeticMean (xs : List K) : K := xs.sum / xs.length

/-- The squared deviations from the average, added up and divided by one less than there are samples. -/
def sampleVariance (xs : List K) : K :=
  (xs.map fun x => (x - arithmeticMean xs) ^ 2).sum / (xs.length - 1)

/-- The unordered pairs of samples, each once. -/
def pairs {α : Type*} : List α → List (α × α)
  | [] => []
  | x :: xs => xs.map (fun y => (x, y)) ++ pairs xs

/-- The squared differences of the pairs, added up and divided by twice as many as there are pairs. -/
def pairVariance (xs : List K) : K :=
  ((pairs xs).map fun p => (p.1 - p.2) ^ 2).sum / (xs.length * (xs.length - 1))

/-- The squared distances from a value. -/
theorem sum_sq_sub (xs : List K) (c : K) :
    (xs.map fun x => (x - c) ^ 2).sum =
      (xs.map fun x => x ^ 2).sum - 2 * c * xs.sum + xs.length * c ^ 2 := by
  induction xs with
  | nil => simp
  | cons x xs ih =>
      rw [List.map_cons, List.sum_cons, ih, List.map_cons, List.sum_cons, List.sum_cons,
        List.length_cons, Nat.cast_succ]
      ring

/-- The squared differences of the pairs. -/
theorem sum_pairs (xs : List K) :
    ((pairs xs).map fun p => (p.1 - p.2) ^ 2).sum =
      xs.length * (xs.map fun x => x ^ 2).sum - xs.sum ^ 2 := by
  induction xs with
  | nil => simp [pairs]
  | cons x xs ih =>
      have hrow : (xs.map fun y => (x - y) ^ 2).sum = (xs.map fun y => (y - x) ^ 2).sum := by
        congr 1
        apply List.map_congr_left
        intro y _
        ring
      rw [pairs, List.map_append, List.sum_append, ih, List.map_map]
      change (xs.map fun y => (x - y) ^ 2).sum + _ = _
      rw [hrow, sum_sq_sub, List.map_cons, List.sum_cons, List.sum_cons, List.length_cons,
        Nat.cast_succ]
      ring

variable [CharZero K] {xs : List K}

/-- The squared deviations are the squared differences of the pairs, by the number of samples. -/
theorem sum_sq_sub_arithmeticMean (hne : xs ≠ []) :
    (xs.map fun x => (x - arithmeticMean xs) ^ 2).sum =
      ((pairs xs).map fun p => (p.1 - p.2) ^ 2).sum / (xs.length : K) := by
  have hn : (xs.length : K) ≠ 0 := by
    exact_mod_cast (List.length_pos_of_ne_nil hne).ne'
  rw [sum_sq_sub, sum_pairs, arithmeticMean]
  field_simp
  ring

/-- **Deviations and differences** give the same variance. -/
theorem sampleVariance_eq_pairVariance (hne : xs ≠ []) : sampleVariance xs = pairVariance xs := by
  rw [sampleVariance, sum_sq_sub_arithmeticMean hne, pairVariance, div_div]

/-- The average of equal samples. -/
theorem arithmeticMean_replicate {n : ℕ} (hn : n ≠ 0) (x : K) : arithmeticMean (List.replicate n x) = x := by
  rw [arithmeticMean, List.sum_replicate, List.length_replicate, nsmul_eq_mul,
    mul_div_cancel_left₀ x (Nat.cast_ne_zero.mpr hn)]

/-- The average moves with the samples. -/
theorem arithmeticMean_map_add (hne : xs ≠ []) (c : K) : arithmeticMean (xs.map (· + c)) = arithmeticMean xs + c := by
  have hn : (xs.length : K) ≠ 0 := by
    exact_mod_cast (List.length_pos_of_ne_nil hne).ne'
  have hsum : (xs.map (· + c)).sum = xs.sum + xs.length * c := by
    rw [List.sum_map_add, List.map_id', List.map_const', List.sum_replicate, nsmul_eq_mul]
  rw [arithmeticMean, arithmeticMean, hsum, List.length_map]
  field_simp

/-- **The variance does not move.** -/
theorem sampleVariance_map_add (hne : xs ≠ []) (c : K) :
    sampleVariance (xs.map (· + c)) = sampleVariance xs := by
  rw [sampleVariance, sampleVariance, arithmeticMean_map_add hne, List.map_map, List.length_map]
  congr 2
  apply List.map_congr_left
  intro x _
  simp only [Function.comp_apply, add_sub_add_right_eq_sub]

/-- **Only equal samples have no variance.** -/
theorem sampleVariance_eq_zero_iff [LinearOrder K] [IsStrictOrderedRing K] (hlen : 2 ≤ xs.length) :
    sampleVariance xs = 0 ↔ ∀ x ∈ xs, ∀ y ∈ xs, x = y := by
  have hne : xs ≠ [] := List.ne_nil_of_length_pos (by omega)
  have hdiv : ((xs.length : K) - 1) ≠ 0 := by
    rw [sub_ne_zero]
    exact_mod_cast (show xs.length ≠ 1 by omega)
  have hnonneg : ∀ a ∈ xs.map fun x => (x - arithmeticMean xs) ^ 2, 0 ≤ a := by
    intro a ha
    obtain ⟨x, -, rfl⟩ := List.mem_map.mp ha
    exact sq_nonneg _
  rw [sampleVariance, div_eq_zero_iff, or_iff_left hdiv]
  constructor
  · intro hzero
    -- every deviation is zero, so all samples are the average
    have hmean : ∀ x ∈ xs, x = arithmeticMean xs := by
      intro x hx
      have hsq := List.all_zero_of_le_zero_le_of_sum_eq_zero hnonneg hzero
        (List.mem_map_of_mem hx)
      exact sub_eq_zero.mp (sq_eq_zero_iff.mp hsq)
    intro x hx y hy
    rw [hmean x hx, hmean y hy]
  · intro hequal
    obtain ⟨x, hx⟩ := List.exists_mem_of_ne_nil xs hne
    have hconst : xs = List.replicate xs.length x :=
      List.eq_replicate_iff.mpr ⟨rfl, fun y hy => hequal y hy x hx⟩
    have hmean : arithmeticMean xs = x := by
      rw [hconst]
      exact arithmeticMean_replicate (by omega) x
    apply List.sum_eq_zero
    intro a ha
    obtain ⟨y, hy, rfl⟩ := List.mem_map.mp ha
    rw [hmean, hequal y hy x hx, sub_self, zero_pow two_ne_zero]
