import Mathlib

/-! # Piecewise linear interpolation

The curve through finitely many points, linear between them and constant outside.

* `polyline_of_mem`, `polyline_of_le`, `polyline_of_ge` — the curve piece by piece.
* `polyline_monotone` — the curve of rising points rises. -/

open AffineMap

variable {K : Type*} [Field K] [LinearOrder K]

/-- The curve through the points `(p k, x k)` for `k ≤ n`, at `t`. -/
def polyline (p x : ℕ → K) : ℕ → K → K
  | 0, _ => x 0
  | n + 1, t =>
      if t ≤ p n then polyline p x n t
      else if t ≤ p (n + 1) then lineMap (x n) (x (n + 1)) ((t - p n) / (p (n + 1) - p n))
      else x (n + 1)

variable {p x : ℕ → K} {n k : ℕ} {t : K}

theorem polyline_succ_of_le (h : t ≤ p n) : polyline p x (n + 1) t = polyline p x n t := if_pos h

/-- In front of the first point the curve is constant. -/
theorem polyline_of_le (hp : StrictMono p) (h : t ≤ p 0) : polyline p x n t = x 0 := by
  induction n with
  | zero => rfl
  | succ n ih => rw [polyline_succ_of_le (h.trans (hp.monotone (Nat.zero_le n))), ih]

variable [IsStrictOrderedRing K]

/-- From the last point on it is constant. -/
theorem polyline_of_ge (hp : StrictMono p) (h : p n ≤ t) : polyline p x n t = x n := by
  cases n with
  | zero => rfl
  | succ n =>
      have hlt : p n < p (n + 1) := hp n.lt_succ_self
      rw [polyline, if_neg (hlt.trans_le h).not_ge]
      split_ifs with hle
      · -- at the last point itself
        rw [le_antisymm hle h, div_self (sub_pos.mpr hlt).ne', lineMap_apply_one]
      · rfl

/-- Between two neighbouring points it is the line through them. -/
theorem polyline_of_mem (hp : StrictMono p) (hk : k < n) (hleft : p k ≤ t) (hright : t ≤ p (k + 1)) :
    polyline p x n t = lineMap (x k) (x (k + 1)) ((t - p k) / (p (k + 1) - p k)) := by
  induction n with
  | zero => exact absurd hk (Nat.not_lt_zero k)
  | succ n ih =>
      rcases Nat.lt_succ_iff_lt_or_eq.mp hk with hlt | rfl
      · rw [polyline_succ_of_le (hright.trans (hp.monotone hlt)), ih hlt]
      · rcases hleft.eq_or_lt with rfl | hlt
        · -- at the first of the two points
          rw [polyline_succ_of_le le_rfl, polyline_of_ge hp le_rfl, sub_self, zero_div,
            lineMap_apply_zero]
        · rw [polyline, if_neg hlt.not_ge, if_pos hright]

/-- Behind a point the curve is the next piece, cut off at its end. -/
theorem polyline_succ_of_ge (hp : StrictMono p) (h : p n ≤ t) :
    polyline p x (n + 1) t = lineMap (x n) (x (n + 1)) (min 1 ((t - p n) / (p (n + 1) - p n))) := by
  have hpos : 0 < p (n + 1) - p n := sub_pos.mpr (hp n.lt_succ_self)
  rcases le_total t (p (n + 1)) with hle | hge
  · have hle1 : (t - p n) / (p (n + 1) - p n) ≤ 1 :=
      (div_le_one hpos).mpr (sub_le_sub_right hle _)
    rw [polyline_of_mem hp n.lt_succ_self h hle, min_eq_right hle1]
  · have hge1 : 1 ≤ (t - p n) / (p (n + 1) - p n) :=
      (one_le_div hpos).mpr (sub_le_sub_right hge _)
    rw [polyline_of_ge hp hge, min_eq_left hge1, lineMap_apply_one]

/-- A line between two values in order rises. -/
theorem lineMap_monotone {a b : K} (h : a ≤ b) : Monotone (lineMap a b : K → K) := by
  intro r s hrs
  rw [lineMap_apply_ring', lineMap_apply_ring']
  exact add_le_add_left (mul_le_mul_of_nonneg_right hrs (sub_nonneg.mpr h)) a

/-- **The curve of rising points rises.** -/
theorem polyline_monotone (hp : StrictMono p) (hx : ∀ k < n, x k ≤ x (k + 1)) :
    Monotone (polyline p x n) := by
  induction n with
  | zero => exact monotone_const
  | succ n ih =>
      have hpos : 0 < p (n + 1) - p n := sub_pos.mpr (hp n.lt_succ_self)
      refine MonotoneOn.Iic_union_Ici (a := p n) ?_ ?_
      · intro s hs t ht hst
        rw [polyline_succ_of_le hs, polyline_succ_of_le ht]
        exact ih (fun k hk => hx k (hk.trans n.lt_succ_self)) hst
      · intro s hs t ht hst
        rw [polyline_succ_of_ge hp hs, polyline_succ_of_ge hp ht]
        apply lineMap_monotone (hx n n.lt_succ_self)
        exact min_le_min_left 1 (div_le_div_of_nonneg_right (sub_le_sub_right hst _) hpos.le)
