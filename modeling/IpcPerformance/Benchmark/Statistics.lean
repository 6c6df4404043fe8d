import IpcPerformance.Library.Interpolation

/-! # The summary statistics

`quantile` and `Statistics::compute` of `include/benchmark/stats.hpp`, with rational numbers in place of
`double`. The samples are given by their values, whatever their unsigned type is; the standard deviation
is left out, as a root is no rational number.

* `quantile_cases` — the two elements a quantile is interpolated between.
* `quantile_eq_polyline` — a quantile is a point of the curve through the sorted samples.
* `Statistics.compute_ordered` — the figures of every non-empty vector, and their order. -/

namespace IpcPerformance

/-! ## Quantiles -/

/-- `poi`: where a quantile of `n` elements is, as an index. -/
def position (n : ℕ) (q : ℚ) : ℚ := (1 - q) * (-1 / 2) + q * (n - 1 / 2)

/-- `left`. -/
def leftIndex (n : ℕ) (q : ℚ) : ℤ := max ⌊position n q⌋ 0

/-- `right`. -/
def rightIndex (n : ℕ) (q : ℚ) : ℤ := min ⌈position n q⌉ (n - 1)

/-- The element at a signed index; there is none outside the vector. -/
def elementAt (data : List ℕ) (i : ℤ) : Option ℕ := if 0 ≤ i then data[i.toNat]? else none

/-- `quantile`; no value when it indexes outside the vector. -/
def quantile (data : List ℕ) (q : ℚ) : Option ℚ := do
  let poi := position data.length q
  let left := leftIndex data.length q
  let dataLeft ← elementAt data left
  let dataRight ← elementAt data (rightIndex data.length q)
  let tmp := poi - left
  return (1 - tmp) * dataLeft + tmp * dataRight

/-! ## Statistics -/

/-- The figures of a benchmark. -/
structure Statistics where
  minimum : ℚ
  filteredMinimum : ℚ
  firstQuartile : ℚ
  median : ℚ
  thirdQuartile : ℚ
  filteredMaximum : ℚ
  maximum : ℚ
  average : ℚ
  /-- No number when it is divided by zero. -/
  variance : Option ℚ
  deriving DecidableEq

namespace Statistics

/-- A sample as an argument of type `int`: the conversion keeps it modulo 2^32. -/
def toInt (i : ℕ) : ℤ := Int.bmod i (2 ^ 32)

/-- The lambda `add_square`. -/
def addSquare (avg sum : ℚ) (i : ℤ) : ℚ :=
  let d := i - avg
  sum + d * d

/-- A division that has no result without a divisor. -/
def divide (a b : ℚ) : Option ℚ := if b = 0 then none else some (a / b)

/-- `std::sort` of the copy. -/
def sort (data : List ℕ) : List ℕ := data.insertionSort (· ≤ ·)

/-- `Statistics::compute`; no result when it uses an element that is not there. -/
def compute (data : List ℕ) : Option Statistics := do
  let tmp := sort data
  let min ← tmp.head?
  let max ← tmp.getLast?
  let q1 ← quantile tmp (1 / 4)
  let q3 ← quantile tmp (3 / 4)
  let sum := tmp.foldl (fun (sum : ℚ) (i : ℕ) => sum + i) 0
  let avg := sum / tmp.length
  let total := tmp.foldl (fun sum i => addSquare avg sum (toInt i)) (0 : ℚ)
  let v := divide total (tmp.length - 1)
  let median ← quantile tmp (1 / 2)
  return {
    minimum := min
    filteredMinimum := Max.max (min : ℚ) (q1 - (q3 - q1) * (3 / 2))
    firstQuartile := q1
    median := median
    thirdQuartile := q3
    filteredMaximum := Min.min (max : ℚ) (q3 + (q3 - q1) * (3 / 2))
    maximum := max
    average := avg
    variance := v }

end Statistics

/-! ## The elements of a quantile -/

variable {data : List ℕ} {n k : ℕ} {q : ℚ}

/-- The value of an element; zero behind the last one. -/
def entry (data : List ℕ) (k : ℕ) : ℚ := (data.getD k 0 : ℕ)

theorem position_eq (n : ℕ) (q : ℚ) : position n q = q * n - 1 / 2 := by
  unfold position
  ring

/-- A position is at most half an element outside the vector. -/
theorem position_mem_Icc (h0 : 0 ≤ q) (h1 : q ≤ 1) :
    position n q ∈ Set.Icc (-1 / 2 : ℚ) (n - 1 / 2) := by
  have hlow := mul_nonneg h0 (Nat.cast_nonneg' n)
  have hhigh := mul_le_mul_of_nonneg_right h1 (Nat.cast_nonneg' n)
  rw [position_eq]
  constructor <;> linarith

/-- A position behind the first element is that of an element, or between two neighbours. -/
theorem floor_ceil_cases {poi : ℚ} (hpos : 0 ≤ poi) :
    ∃ k : ℕ, ⌊poi⌋ = k ∧ (poi = k ∧ ⌈poi⌉ = k ∨ (k : ℚ) < poi ∧ poi < k + 1 ∧ ⌈poi⌉ = k + 1) := by
  obtain ⟨k, hfloor⟩ := Int.eq_ofNat_of_zero_le (Int.floor_nonneg.mpr hpos)
  refine ⟨k, hfloor, ?_⟩
  have hle : (k : ℚ) ≤ poi := by
    have := Int.floor_le poi
    rwa [hfloor] at this
  have hsucc : poi < k + 1 := by
    have := Int.lt_floor_add_one poi
    rwa [hfloor] at this
  rcases hle.eq_or_lt with heq | hgt
  · exact .inl ⟨heq.symm, by rw [← heq, Int.ceil_natCast]⟩
  · have hceil : ⌈poi⌉ = k + 1 :=
      Int.ceil_eq_iff.mpr ⟨by push_cast; linarith, by push_cast; exact hsucc.le⟩
    exact .inr ⟨hgt, hsucc, hceil⟩

/-- **Where a quantile is**: in front of the first element, at or behind the last one, at one of the
others, or between two neighbours. -/
theorem quantile_cases (hn : 0 < n) (h0 : 0 ≤ q) (h1 : q ≤ 1) :
    (position n q ≤ 0 ∧ leftIndex n q = (0 : ℕ) ∧ rightIndex n q = (0 : ℕ)) ∨
    (((n - 1 : ℕ) : ℚ) ≤ position n q ∧ leftIndex n q = (n - 1 : ℕ) ∧
      rightIndex n q = (n - 1 : ℕ)) ∨
    (∃ k, k + 1 < n ∧ position n q = k ∧ leftIndex n q = k ∧ rightIndex n q = k) ∨
    (∃ k, k + 1 < n ∧ (k : ℚ) < position n q ∧ position n q < k + 1 ∧ leftIndex n q = k ∧
      rightIndex n q = (k + 1 : ℕ)) := by
  obtain ⟨hlow, hhigh⟩ := position_mem_Icc (n := n) h0 h1
  have hlast : ((n - 1 : ℕ) : ℚ) = n - 1 := by
    rw [Nat.cast_sub hn, Nat.cast_one]
  unfold leftIndex rightIndex
  generalize position n q = poi at hlow hhigh
  rcases le_or_gt poi 0 with hneg | hpos
  · refine .inl ⟨hneg, ?_, ?_⟩
    · exact max_eq_right (Int.floor_nonpos hneg)
    · have hceil : ⌈poi⌉ = 0 := Int.ceil_eq_zero_iff.mpr ⟨by linarith, hneg⟩
      rw [hceil]
      omega
  · rcases le_or_gt ((n - 1 : ℕ) : ℚ) poi with hge | hlt
    · refine .inr (.inl ⟨hge, ?_, ?_⟩)
      · have hfloor : ⌊poi⌋ = (n - 1 : ℕ) :=
          Int.floor_eq_iff.mpr ⟨hge, by rw [Int.cast_natCast, hlast]; linarith⟩
        rw [hfloor]
        omega
      · have hceil : ((n - 1 : ℕ) : ℤ) ≤ ⌈poi⌉ := by
          exact_mod_cast hge.trans (Int.le_ceil poi)
        omega
    · -- between the first element and the last one
      obtain ⟨k, hfloor, hcases⟩ := floor_ceil_cases hpos.le
      have hk : k + 1 < n := by
        have hle : k ≤ ⌊poi⌋ := hfloor.ge
        have : (k : ℚ) < (n - 1 : ℕ) := (Int.le_floor.mp hle).trans_lt hlt
        have : k < n - 1 := by exact_mod_cast this
        omega
      rcases hcases with ⟨heq, hceil⟩ | ⟨hgt, hsucc, hceil⟩
      · refine .inr (.inr (.inl ⟨k, hk, heq, ?_, ?_⟩)) <;> omega
      · refine .inr (.inr (.inr ⟨k, hk, hgt, hsucc, ?_, ?_⟩)) <;> omega

theorem elementAt_of_lt (hk : k < data.length) : elementAt data k = some data[k] := by
  rw [elementAt, if_pos (Int.natCast_nonneg k), Int.toNat_natCast, List.getElem?_eq_getElem hk]

theorem entry_of_lt (hk : k < data.length) : entry data k = data[k] := by
  rw [entry, List.getD_eq_getElem _ _ hk]

/-- The value of a quantile with the elements it is interpolated between. -/
theorem quantile_eq {i j : ℕ} (hi : i < data.length) (hj : j < data.length)
    (hleft : leftIndex data.length q = i) (hright : rightIndex data.length q = j) :
    quantile data q = some (AffineMap.lineMap (entry data i) (entry data j)
      (position data.length q - i)) := by
  rw [AffineMap.lineMap_apply_ring, entry_of_lt hi, entry_of_lt hj]
  simp only [quantile, hleft, hright, elementAt_of_lt hi, elementAt_of_lt hj]
  rfl

/-- At one element there is nothing to interpolate. -/
theorem quantile_eq_entry (hk : k < data.length) (hleft : leftIndex data.length q = k)
    (hright : rightIndex data.length q = k) : quantile data q = some (entry data k) := by
  rw [quantile_eq hk hk hleft hright, AffineMap.lineMap_same_apply]

/-! ## The curve of the quantiles -/

/-- Where the sample `k` of `n` is as a quantile. -/
def knot (n k : ℕ) : ℚ := (k + 1 / 2) / n

theorem knot_strictMono (hn : 0 < n) : StrictMono (knot n) := by
  intro i j hij
  have hn' : (0 : ℚ) < n := by exact_mod_cast hn
  have hij' : (i : ℚ) < j := by exact_mod_cast hij
  exact div_lt_div_of_pos_right (by linarith) hn'

/-- A quantile is in front of a knot when its position is in front of the index. -/
theorem le_knot_iff (hn : 0 < n) : q ≤ knot n k ↔ position n q ≤ k := by
  have hn' : (0 : ℚ) < n := by exact_mod_cast hn
  rw [knot, le_div_iff₀ hn', position_eq, sub_le_iff_le_add]

theorem knot_le_iff (hn : 0 < n) : knot n k ≤ q ↔ (k : ℚ) ≤ position n q := by
  have hn' : (0 : ℚ) < n := by exact_mod_cast hn
  rw [knot, div_le_iff₀ hn', position_eq, le_sub_iff_add_le]

/-- How far a quantile is on its way from one knot to the next. -/
theorem sub_knot_div (hn : 0 < n) (q : ℚ) (k : ℕ) :
    (q - knot n k) / (knot n (k + 1) - knot n k) = position n q - k := by
  have hn' : (n : ℚ) ≠ 0 := by exact_mod_cast hn.ne'
  rw [knot, knot, position_eq]
  push_cast
  field_simp
  ring

/-- **A quantile is a point of the curve** through the elements at their knots. -/
theorem quantile_eq_polyline (hdata : data ≠ []) (h0 : 0 ≤ q) (h1 : q ≤ 1) :
    quantile data q =
      some (polyline (knot data.length) (entry data) (data.length - 1) q) := by
  have hn : 0 < data.length := List.length_pos_of_ne_nil hdata
  have hp := knot_strictMono hn
  rcases quantile_cases hn h0 h1 with ⟨hpos, hleft, hright⟩ | ⟨hpos, hleft, hright⟩ |
    ⟨k, hk, hpos, hleft, hright⟩ | ⟨k, hk, hgt, hlt, hleft, hright⟩
  · have hle : q ≤ knot data.length 0 := (le_knot_iff hn).mpr hpos
    rw [quantile_eq_entry hn hleft hright, polyline_of_le hp hle]
  · have hge : knot data.length (data.length - 1) ≤ q := (knot_le_iff hn).mpr hpos
    rw [quantile_eq_entry (Nat.sub_one_lt hn.ne') hleft hright, polyline_of_ge hp hge]
  · have hge : knot data.length k ≤ q := (knot_le_iff hn).mpr hpos.ge
    have hle : q ≤ knot data.length k := (le_knot_iff hn).mpr hpos.le
    rw [quantile_eq_entry (by omega) hleft hright,
      polyline_of_mem hp (by omega) hge (hle.trans (hp.monotone k.le_succ)), sub_knot_div hn, hpos,
      sub_self, AffineMap.lineMap_apply_zero]
  · have hge : knot data.length k ≤ q := (knot_le_iff hn).mpr hgt.le
    have hle : q ≤ knot data.length (k + 1) :=
      (le_knot_iff hn).mpr (by rw [Nat.cast_succ]; exact hlt.le)
    rw [quantile_eq (by omega) hk hleft hright, polyline_of_mem hp (by omega) hge hle,
      sub_knot_div hn]

/-! ## Sorted samples -/

/-- The elements of a sorted vector rise. -/
theorem entry_le_entry (hsorted : data.SortedLE) {i j : ℕ} (hij : i ≤ j) (hj : j < data.length) :
    entry data i ≤ entry data j := by
  rw [entry_of_lt (hij.trans_lt hj), entry_of_lt hj]
  exact_mod_cast hsorted.getElem_le_getElem_of_le hij

/-- What the quantiles of a sorted vector are like. -/
structure QuantileSound (data : List ℕ) : Prop where
  /-- Both indices are those of elements, and the quantile lies between them. -/
  between {q : ℚ} (h0 : 0 ≤ q) (h1 : q ≤ 1) :
    ∃ left right v, elementAt data (leftIndex data.length q) = some left ∧
      elementAt data (rightIndex data.length q) = some right ∧ quantile data q = some v ∧
      (left : ℚ) ≤ v ∧ v ≤ right
  /-- A larger quantile is not smaller. -/
  monotone {q q' v v' : ℚ} (h0 : 0 ≤ q) (hle : q ≤ q') (h1 : q' ≤ 1) (hv : quantile data q = some v)
    (hv' : quantile data q' = some v') : v ≤ v'
  /-- The quantiles are the curve through the elements at `(k + 1/2) / n`. -/
  curve {q : ℚ} (h0 : 0 ≤ q) (h1 : q ≤ 1) :
    quantile data q =
      some (polyline (knot data.length) (entry data) (data.length - 1) q)

/-- A quantile lies between the elements it is interpolated between. -/
theorem quantile_between (hdata : data ≠ []) (hsorted : data.SortedLE) (h0 : 0 ≤ q) (h1 : q ≤ 1) :
    ∃ left right v, elementAt data (leftIndex data.length q) = some left ∧
      elementAt data (rightIndex data.length q) = some right ∧ quantile data q = some v ∧
      (left : ℚ) ≤ v ∧ v ≤ right := by
  have hn : 0 < data.length := List.length_pos_of_ne_nil hdata
  have hsame : ∀ k < data.length, leftIndex data.length q = k → rightIndex data.length q = k →
      ∃ left right v, elementAt data (leftIndex data.length q) = some left ∧
        elementAt data (rightIndex data.length q) = some right ∧ quantile data q = some v ∧
        (left : ℚ) ≤ v ∧ v ≤ right := by
    intro k hk hleft hright
    refine ⟨data[k], data[k], data[k], ?_, ?_, ?_, le_rfl, le_rfl⟩
    · rw [hleft, elementAt_of_lt hk]
    · rw [hright, elementAt_of_lt hk]
    · rw [quantile_eq_entry hk hleft hright, entry_of_lt hk]
  rcases quantile_cases hn h0 h1 with ⟨-, hleft, hright⟩ | ⟨-, hleft, hright⟩ |
    ⟨k, hk, -, hleft, hright⟩ | ⟨k, hk, hgt, hlt, hleft, hright⟩
  · exact hsame 0 hn hleft hright
  · exact hsame _ (Nat.sub_one_lt hn.ne') hleft hright
  · exact hsame k (by omega) hleft hright
  · have hk' : k < data.length := by omega
    have hle := entry_le_entry hsorted k.le_succ hk
    have hrise := lineMap_monotone hle
    refine ⟨data[k], data[k + 1], _, ?_, ?_, quantile_eq hk' hk hleft hright, ?_, ?_⟩
    · rw [hleft, elementAt_of_lt hk']
    · rw [hright, elementAt_of_lt hk]
    · have hge := hrise (sub_nonneg.mpr hgt.le)
      rw [AffineMap.lineMap_apply_zero] at hge
      rw [← entry_of_lt hk']
      exact hge
    · have hle1 := hrise (show position data.length q - k ≤ 1 by linarith)
      rw [AffineMap.lineMap_apply_one] at hle1
      rw [← entry_of_lt hk]
      exact hle1

/-- **The quantiles of a sorted vector.** -/
theorem quantileSound_of_sorted (hdata : data ≠ []) (hsorted : data.SortedLE) :
    QuantileSound data where
  between h0 h1 := quantile_between hdata hsorted h0 h1
  monotone := by
    intro q q' v v' h0 hle h1 hv hv'
    have hn : 0 < data.length := List.length_pos_of_ne_nil hdata
    rw [quantile_eq_polyline hdata h0 (hle.trans h1)] at hv
    rw [quantile_eq_polyline hdata (h0.trans hle) h1] at hv'
    cases hv
    cases hv'
    refine polyline_monotone (knot_strictMono hn) ?_ hle
    intro k hk
    exact entry_le_entry hsorted k.le_succ (by omega)
  curve h0 h1 := quantile_eq_polyline hdata h0 h1

/-! ## The order of the figures -/

namespace Statistics

/-- The figures in order. -/
structure Ordered (s : Statistics) : Prop where
  minimum_le : s.minimum ≤ s.filteredMinimum
  filteredMinimum_le : s.filteredMinimum ≤ s.firstQuartile
  firstQuartile_le : s.firstQuartile ≤ s.median
  median_le : s.median ≤ s.thirdQuartile
  thirdQuartile_le : s.thirdQuartile ≤ s.filteredMaximum
  filteredMaximum_le : s.filteredMaximum ≤ s.maximum
  minimum_le_average : s.minimum ≤ s.average
  average_le_maximum : s.average ≤ s.maximum

theorem sorted_sort (data : List ℕ) : (sort data).SortedLE := List.sortedLE_insertionSort

theorem sort_perm (data : List ℕ) : (sort data).Perm data := List.perm_insertionSort _ _

theorem sort_ne_nil (hdata : data ≠ []) : sort data ≠ [] := by
  intro hnil
  exact hdata (hnil ▸ sort_perm data).symm.eq_nil

/-- What is sorted does not depend on the order it was in. -/
theorem sort_eq_of_perm {data' : List ℕ} (h : data.Perm data') : sort data = sort data' :=
  ((sort_perm data).trans (h.trans (sort_perm data').symm)).eq_of_pairwise'
    (sorted_sort data).pairwise (sorted_sort data').pairwise

/-- Adding up something about each element. -/
theorem foldl_add (f : ℕ → ℚ) (data : List ℕ) (sum : ℚ) :
    data.foldl (fun sum i => sum + f i) sum = sum + (data.map f).sum := by
  induction data generalizing sum with
  | nil => exact (add_zero sum).symm
  | cons i data ih => rw [List.foldl_cons, ih, List.map_cons, List.sum_cons, add_assoc]

/-- The average of the elements. -/
def mean (data : List ℕ) : ℚ := (data.map fun i : ℕ => (i : ℚ)).sum / data.length

/-- The sum of the squared differences that `compute` adds up. -/
def total (data : List ℕ) : ℚ :=
  (data.map fun i => ((toInt i : ℚ) - mean data) * ((toInt i : ℚ) - mean data)).sum

theorem mean_sort (data : List ℕ) : mean (sort data) = mean data := by
  rw [mean, mean, ((sort_perm data).map _).sum_eq, (sort_perm data).length_eq]

theorem total_sort (data : List ℕ) : total (sort data) = total data := by
  rw [total, total, mean_sort, ((sort_perm data).map _).sum_eq]

/-- The average lies between bounds of the elements. -/
theorem le_mean (hdata : data ≠ []) {a : ℚ} (h : ∀ i ∈ data, a ≤ i) : a ≤ mean data := by
  have hn : (0 : ℚ) < data.length := by exact_mod_cast List.length_pos_of_ne_nil hdata
  rw [mean, le_div_iff₀ hn, mul_comm, ← nsmul_eq_mul]
  have := List.card_nsmul_le_sum (data.map fun i : ℕ => (i : ℚ)) a (by simpa using h)
  rwa [List.length_map] at this

theorem mean_le (hdata : data ≠ []) {a : ℚ} (h : ∀ i ∈ data, (i : ℚ) ≤ a) : mean data ≤ a := by
  have hn : (0 : ℚ) < data.length := by exact_mod_cast List.length_pos_of_ne_nil hdata
  rw [mean, div_le_iff₀ hn, mul_comm, ← nsmul_eq_mul]
  have := List.sum_le_card_nsmul (data.map fun i : ℕ => (i : ℚ)) a (by simpa using h)
  rwa [List.length_map] at this

/-- The elements of a sorted vector lie between the first and the last one. -/
theorem entry_le_of_mem (hsorted : data.SortedLE) {i : ℕ} (hi : i ∈ data) :
    entry data 0 ≤ i ∧ i ≤ entry data (data.length - 1) := by
  obtain ⟨k, hk, rfl⟩ := List.getElem_of_mem hi
  rw [← entry_of_lt hk]
  exact ⟨entry_le_entry hsorted (Nat.zero_le k) hk, entry_le_entry hsorted (by omega) (by omega)⟩

theorem mem_of_elementAt {i : ℤ} {a : ℕ} (h : elementAt data i = some a) : a ∈ data := by
  unfold elementAt at h
  split at h
  · exact List.mem_of_getElem? h
  · cases h

/-- **What `compute` returns**, in terms of the quantiles of the sorted vector. -/
theorem compute_eq {q1 q2 q3 : ℚ} (hdata : data ≠ []) (h1 : quantile (sort data) (1 / 4) = some q1)
    (h2 : quantile (sort data) (1 / 2) = some q2) (h3 : quantile (sort data) (3 / 4) = some q3) :
    compute data = some {
      minimum := entry (sort data) 0
      filteredMinimum := max (entry (sort data) 0) (q1 - (q3 - q1) * (3 / 2))
      firstQuartile := q1
      median := q2
      thirdQuartile := q3
      filteredMaximum := min (entry (sort data) (data.length - 1)) (q3 + (q3 - q1) * (3 / 2))
      maximum := entry (sort data) (data.length - 1)
      average := mean data
      variance := divide (total data) (data.length - 1) } := by
  have hne := sort_ne_nil hdata
  have hn : 0 < (sort data).length := List.length_pos_of_ne_nil hne
  have hlen : (sort data).length = data.length := (sort_perm data).length_eq
  have hhead : (sort data).head? = some (sort data)[0] := by
    rw [List.head?_eq_getElem?, List.getElem?_eq_getElem hn]
  have hlast : (sort data).getLast? = some (sort data)[(sort data).length - 1] := by
    rw [List.getLast?_eq_getElem?, List.getElem?_eq_getElem]
  have hsum := foldl_add (fun i => (i : ℚ)) (sort data) 0
  have havg : (sort data).foldl (fun (sum : ℚ) (i : ℕ) => sum + i) 0 / (sort data).length =
      mean data := by
    rw [hsum, zero_add, ← mean_sort]
    rfl
  have htotal : (sort data).foldl (fun sum i => addSquare (mean data) sum (toInt i)) (0 : ℚ) =
      total data := by
    rw [← total_sort, ← mean_sort]
    exact (foldl_add _ (sort data) 0).trans (zero_add _)
  rw [← hlen, entry_of_lt hn, entry_of_lt (Nat.sub_one_lt hn.ne')]
  simp only [compute, hhead, hlast, h1, h2, h3, havg, htotal]
  rfl

/-- A quantile lies between the minimum and the maximum. -/
theorem quantile_within (hdata : data ≠ []) {q : ℚ} (h0 : 0 ≤ q) (h1 : q ≤ 1) :
    ∃ v, quantile (sort data) q = some v ∧ entry (sort data) 0 ≤ v ∧
      v ≤ entry (sort data) (data.length - 1) := by
  have hsorted := sorted_sort data
  have hlen : (sort data).length = data.length := (sort_perm data).length_eq
  obtain ⟨left, right, v, hleft, hright, hv, hle, hge⟩ :=
    (quantileSound_of_sorted (sort_ne_nil hdata) hsorted).between h0 h1
  refine ⟨v, hv, ?_, ?_⟩
  · exact (entry_le_of_mem hsorted (mem_of_elementAt hleft)).1.trans hle
  · rw [← hlen]
    exact hge.trans (entry_le_of_mem hsorted (mem_of_elementAt hright)).2

/-- The figures are those of the vector: its extremes and quartiles, the extremes without what is more
than one and a half interquartile ranges off, average and variance. -/
structure Describes (s : Statistics) (data : List ℕ) : Prop where
  minimum : s.minimum = entry (sort data) 0
  maximum : s.maximum = entry (sort data) (data.length - 1)
  firstQuartile : quantile (sort data) (1 / 4) = some s.firstQuartile
  median : quantile (sort data) (1 / 2) = some s.median
  thirdQuartile : quantile (sort data) (3 / 4) = some s.thirdQuartile
  filteredMinimum : s.filteredMinimum =
    max s.minimum (s.firstQuartile - (s.thirdQuartile - s.firstQuartile) * (3 / 2))
  filteredMaximum : s.filteredMaximum =
    min s.maximum (s.thirdQuartile + (s.thirdQuartile - s.firstQuartile) * (3 / 2))
  average : s.average = mean data
  variance : s.variance = divide (total data) (data.length - 1)

/-- **The figures of every non-empty vector are in order**: they describe it, its quantiles are sound, and
its order does not matter. -/
theorem compute_ordered (hdata : data ≠ []) :
    QuantileSound (sort data) ∧ ∃ s, compute data = some s ∧ s.Describes data ∧ s.Ordered ∧
      ∀ data', data.Perm data' → compute data' = some s := by
  have hsorted := sorted_sort data
  have hsound := quantileSound_of_sorted (sort_ne_nil hdata) hsorted
  have hlen : (sort data).length = data.length := (sort_perm data).length_eq
  refine ⟨hsound, ?_⟩
  obtain ⟨q1, h1, hmin, -⟩ := quantile_within hdata (q := 1 / 4) (by norm_num) (by norm_num)
  obtain ⟨q2, h2, -⟩ := quantile_within hdata (q := 1 / 2) (by norm_num) (by norm_num)
  obtain ⟨q3, h3, -, hmax⟩ := quantile_within hdata (q := 3 / 4) (by norm_num) (by norm_num)
  have h12 : q1 ≤ q2 := hsound.monotone (by norm_num) (by norm_num) (by norm_num) h1 h2
  have h23 : q2 ≤ q3 := hsound.monotone (by norm_num) (by norm_num) (by norm_num) h2 h3
  refine ⟨_, compute_eq hdata h1 h2 h3, ⟨rfl, rfl, h1, h2, h3, rfl, rfl, rfl, rfl⟩, ?_, ?_⟩
  · constructor
    · exact le_max_left _ _
    · exact max_le hmin (by linarith)
    · exact h12
    · exact h23
    · exact le_min hmax (by linarith)
    · exact min_le_left _ _
    · apply le_mean hdata
      intro i hi
      exact (entry_le_of_mem hsorted ((sort_perm data).mem_iff.mpr hi)).1
    · apply mean_le hdata
      intro i hi
      rw [← hlen]
      exact (entry_le_of_mem hsorted ((sort_perm data).mem_iff.mpr hi)).2
  · intro data' hperm
    have hsame : compute data' = compute data := by
      rw [compute, compute, sort_eq_of_perm hperm]
    rw [hsame, compute_eq hdata h1 h2 h3]

/-- Three samples, with the statistics of them. -/
theorem compute_ordered_three :
    QuantileSound (sort [5, 1, 2]) ∧ ∃ s, compute [5, 1, 2] = some s ∧ s.Describes [5, 1, 2] ∧
      s.Ordered ∧ ∀ data', [5, 1, 2].Perm data' → compute data' = some s :=
  compute_ordered (List.cons_ne_nil _ _)

end Statistics

end IpcPerformance
