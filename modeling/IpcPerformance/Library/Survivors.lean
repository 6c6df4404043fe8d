import Mathlib

/-! # Survivors

A list whose later elements strike out earlier ones. What survives can be kept up to date while the
elements arrive: each one strikes out those it hits, and joins the rest.

* `length_survivors_add_struckOut` — every element survives, or is struck out.
* `survivors_concat`, `struckOut_concat` — what an arriving element does.
* `pairwise_survivors` — no survivor is hit by a later one. -/

variable {α : Type*} {hits : α → α → Bool} {x y : α} {xs : List α} {i : ℕ}

/-- The element at an index is not hit by a later one. -/
def Survives (hits : α → α → Bool) (xs : List α) (i : ℕ) : Bool :=
  (xs[i]?).all fun x => (xs.drop (i + 1)).all fun y => !hits y x

/-- The elements that survive, in order. -/
def survivors (hits : α → α → Bool) (xs : List α) : List α :=
  ((List.range xs.length).filter (Survives hits xs)).filterMap (xs[·]?)

/-- The number of elements that do not. -/
def struckOut (hits : α → α → Bool) (xs : List α) : ℕ :=
  (List.range xs.length).countP fun i => !Survives hits xs i

/-! ## From the front -/

theorem survives_cons_zero : Survives hits (x :: xs) 0 = xs.all fun y => !hits y x := rfl

theorem survivors_cons :
    survivors hits (x :: xs) =
      if xs.all fun y => !hits y x then x :: survivors hits xs else survivors hits xs := by
  have hrest : (((List.range xs.length).map Nat.succ).filter (Survives hits (x :: xs))).filterMap
      ((x :: xs)[·]?) = survivors hits xs := by
    rw [List.filter_map, List.filterMap_map]
    rfl
  rw [survivors, List.length_cons, List.range_succ_eq_map, List.filter_cons, survives_cons_zero]
  split
  · rw [List.filterMap_cons, hrest]
    rfl
  · exact hrest

theorem struckOut_cons :
    struckOut hits (x :: xs) =
      struckOut hits xs + if xs.all fun y => !hits y x then 0 else 1 := by
  have hrest : ((List.range xs.length).map Nat.succ).countP
      (fun i => !Survives hits (x :: xs) i) = struckOut hits xs := by
    rw [List.countP_map]
    rfl
  rw [struckOut, List.length_cons, List.range_succ_eq_map, List.countP_cons, survives_cons_zero,
    hrest]
  cases xs.all fun y => !hits y x <;> rfl

/-- Every element survives, or is struck out. -/
theorem length_survivors_add_struckOut (hits : α → α → Bool) (xs : List α) :
    (survivors hits xs).length + struckOut hits xs = xs.length := by
  induction xs with
  | nil => rfl
  | cons x xs ih =>
      rw [survivors_cons, struckOut_cons, List.length_cons, ← ih]
      split
      · rw [List.length_cons]
        omega
      · omega

/-! ## An element arrives -/

/-- **What an arriving element does**: it strikes out the survivors it hits, and survives. -/
theorem survivors_concat (xs : List α) (y : α) :
    survivors hits (xs ++ [y]) = (survivors hits xs).filter (fun x => !hits y x) ++ [y] := by
  induction xs with
  | nil => rfl
  | cons x xs ih =>
      rw [List.cons_append, survivors_cons, survivors_cons, ih, List.all_append]
      by_cases hall : (xs.all fun z => !hits z x) = true <;> by_cases hy : hits y x = true
      · simp [hall, hy]
      · simp [hall, hy]
      · simp [hall]
      · simp [hall]

theorem struckOut_concat (xs : List α) (y : α) :
    struckOut hits (xs ++ [y]) = struckOut hits xs + (survivors hits xs).countP (hits y) := by
  -- what does not survive any more has been struck out
  have hbefore := length_survivors_add_struckOut hits xs
  have hafter := length_survivors_add_struckOut hits (xs ++ [y])
  have hsplit : (survivors hits xs).length = (survivors hits xs).countP (hits y) +
      ((survivors hits xs).filter fun x => !hits y x).length := by
    rw [List.length_eq_countP_add_countP (hits y), ← List.countP_eq_length_filter]
    simp
  rw [survivors_concat, List.length_append, List.length_append] at hafter
  omega

/-- Survivors are elements of the list. -/
theorem mem_of_mem_survivors (h : x ∈ survivors hits xs) : x ∈ xs := by
  obtain ⟨i, -, hi⟩ := List.mem_filterMap.mp h
  exact List.mem_of_getElem? hi

/-- **No survivor is hit by a later one.** -/
theorem pairwise_survivors (hits : α → α → Bool) (xs : List α) :
    (survivors hits xs).Pairwise fun x y => hits y x = false := by
  induction xs with
  | nil => exact List.Pairwise.nil
  | cons x xs ih =>
      rw [survivors_cons]
      split
      · rename_i hall
        refine List.pairwise_cons.mpr ⟨?_, ih⟩
        intro y hy
        have := List.all_eq_true.mp hall y (mem_of_mem_survivors hy)
        simpa using this
      · exact ih
