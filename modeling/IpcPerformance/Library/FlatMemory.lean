import Mathlib

/-! # Flat memory

A byte-addressed memory is a function from addresses to cells. `Memory.read` and `Memory.write` are
`memcpy` out of and into it; the frame lemmas say which cells a copy leaves alone, and the splitting
lemmas let a sequence of adjacent copies be treated as one. Nothing here depends on the cell type. -/

/-- A memory: the cell stored at every address. -/
abbrev Memory (α : Type*) := ℕ → α

namespace Memory

variable {α : Type*}

/-- Copy `cells` into `m`, the first one to address `a`. -/
def write (m : Memory α) (a : ℕ) (cells : List α) : Memory α := fun i =>
  if a ≤ i then cells.getD (i - a) (m i) else m i

/-- The `n` cells of `m` from address `a` on. -/
def read (m : Memory α) (a n : ℕ) : List α := (List.range n).map fun i => m (a + i)

/-! ## Reading -/

@[simp] theorem length_read (m : Memory α) (a n : ℕ) : (m.read a n).length = n := by
  simp [read]

@[simp] theorem read_zero (m : Memory α) (a : ℕ) : m.read a 0 = [] := rfl

@[simp] theorem getElem_read (m : Memory α) (a n i : ℕ) (h : i < (m.read a n).length) :
    (m.read a n)[i] = m (a + i) := by
  simp [read]

/-- What has been read tells the cells. -/
theorem apply_of_read_eq {m : Memory α} {a n : ℕ} {xs : List α} (h : m.read a n = xs) {i : ℕ}
    (hi : i < xs.length) : m (a + i) = xs[i] := by
  subst h
  exact (getElem_read m a n i hi).symm

/-- Two reads agree exactly when the cells they look at do. -/
theorem read_congr {m m' : Memory α} {a a' n : ℕ} :
    m.read a n = m'.read a' n ↔ ∀ i < n, m (a + i) = m' (a' + i) := by
  simp [read]

/-- A read splits at any point. -/
theorem read_add (m : Memory α) (a k n : ℕ) :
    m.read a (k + n) = m.read a k ++ m.read (a + k) n := by
  simp [read, List.range_add, Nat.add_assoc]

theorem read_succ (m : Memory α) (a n : ℕ) : m.read a (n + 1) = m.read a n ++ [m (a + n)] := by
  rw [read_add]
  simp [read]

/-- The first element of a read, and those behind it. -/
theorem read_succ_eq_append (m : Memory α) (a n : ℕ) :
    m.read a (n + 1) = [m a] ++ m.read (a + 1) n := by
  rw [Nat.add_comm, read_add]
  simp [read]

/-- A prefix of a read is the shorter read. -/
theorem take_read (m : Memory α) (a : ℕ) {k n : ℕ} (h : k ≤ n) :
    (m.read a n).take k = m.read a k := by
  obtain ⟨d, rfl⟩ := Nat.exists_eq_add_of_le h
  rw [read_add, List.take_left' (length_read m a k)]

/-- Dropping a prefix of a read is the read further on. -/
theorem drop_read (m : Memory α) (a : ℕ) {k n : ℕ} (h : k ≤ n) :
    (m.read a n).drop k = m.read (a + k) (n - k) := by
  obtain ⟨d, rfl⟩ := Nat.exists_eq_add_of_le h
  rw [read_add, List.drop_left' (length_read m a k), Nat.add_sub_cancel_left]

/-! ## Writing -/

@[simp] theorem write_nil (m : Memory α) (a : ℕ) : m.write a [] = m := by
  funext i
  simp [write]

/-- Cells below the destination are left alone. -/
theorem write_apply_of_lt (m : Memory α) {a i : ℕ} (cells : List α) (h : i < a) :
    m.write a cells i = m i := by
  simp [write, Nat.not_le.mpr h]

/-- Cells past the destination are left alone. -/
theorem write_apply_of_le (m : Memory α) {a i : ℕ} (cells : List α) (h : a + cells.length ≤ i) :
    m.write a cells i = m i := by
  have hlen : cells.length ≤ i - a := by omega
  simp [write, List.getElem?_eq_none hlen]

/-- Inside the destination the copied cells are found. -/
theorem write_apply_add (m : Memory α) (a i : ℕ) (cells : List α) (h : i < cells.length) :
    m.write a cells (a + i) = cells[i] := by
  simp [write, h]

/-- A cell that has been written is found. -/
@[simp] theorem write_apply_self (m : Memory α) (a : ℕ) (x : α) : m.write a [x] a = x := by
  simp [write]

/-- Two adjacent copies are one copy of the concatenation. -/
theorem write_append (m : Memory α) (a : ℕ) (xs ys : List α) :
    m.write a (xs ++ ys) = (m.write a xs).write (a + xs.length) ys := by
  funext i
  by_cases hlow : i < a + xs.length
  · rw [write_apply_of_lt (m.write a xs) ys hlow]
    by_cases ha : a ≤ i
    · obtain ⟨k, rfl⟩ := Nat.exists_eq_add_of_le ha
      have hk : k < xs.length := by omega
      rw [write_apply_add _ _ _ _ hk, write_apply_add _ _ _ _ (by simp; omega),
        List.getElem_append_left hk]
    · rw [write_apply_of_lt m _ (by omega), write_apply_of_lt m _ (by omega)]
  · obtain ⟨k, rfl⟩ := Nat.exists_eq_add_of_le (Nat.le_of_not_lt hlow)
    by_cases hk : k < ys.length
    · rw [write_apply_add _ _ _ _ hk, Nat.add_assoc,
        write_apply_add _ _ _ _ (by simp; omega), List.getElem_append_right (by omega)]
      simp
    · rw [write_apply_of_le m (xs ++ ys) (by simp; omega),
        write_apply_of_le (m.write a xs) ys (by omega), write_apply_of_le m xs (by omega)]

/-! ## Reading what was written -/

/-- Reading a prefix of a copy back gives that prefix. -/
theorem read_write_take (m : Memory α) (a n : ℕ) (cells : List α) (h : n ≤ cells.length) :
    (m.write a cells).read a n = cells.take n := by
  apply List.ext_getElem
  · simp [h]
  · intro i hi _
    have hi' : i < cells.length := by
      rw [length_read] at hi
      omega
    rw [getElem_read, write_apply_add _ _ _ _ hi', List.getElem_take]

/-- Reading a copy back gives what was copied. -/
@[simp] theorem read_write (m : Memory α) (a : ℕ) (cells : List α) :
    (m.write a cells).read a cells.length = cells := by
  rw [read_write_take _ _ _ _ le_rfl, List.take_length]

/-- A read that does not meet a copy does not see it. -/
theorem read_write_of_disjoint (m : Memory α) {a b n : ℕ} (cells : List α)
    (h : b + n ≤ a ∨ a + cells.length ≤ b) : (m.write a cells).read b n = m.read b n := by
  rw [read_congr]
  intro i hi
  rcases h with h | h
  · exact write_apply_of_lt m cells (by omega)
  · exact write_apply_of_le m cells (by omega)

/-- Reading past a copy: the copied cells first, the old ones after them. -/
theorem read_write_add (m : Memory α) (a n : ℕ) (cells : List α) :
    (m.write a cells).read a (cells.length + n) = cells ++ m.read (a + cells.length) n := by
  rw [read_add, read_write, read_write_of_disjoint m cells (Or.inr le_rfl)]

end Memory
