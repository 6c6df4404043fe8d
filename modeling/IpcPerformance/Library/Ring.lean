import Mathlib

/-! # Ring buffers

A ring of `N` slots between a writer and a reader, each with a cursor of its own. What the slots hold
is a relation `holds` between slot numbers and items, so the store behind them may be anything.

* `RingHolds N holds c xs` — from slot `c` on, the slots hold the items `xs`; a store that changes the
  slot behind the last item only keeps them (`RingHolds.of_ne`), and filling that slot appends an item
  (`RingHolds.concat`).
* `RingState` — the ring with its two counting semaphores between calls: `RingState.push` and `RingState.pop` are what
  a write and a read do to it. -/

variable {α : Type*} {N : ℕ} {holds holds' : ℕ → α → Prop}

/-- From slot `c` on, the slots hold the items `xs`. -/
def RingHolds (N : ℕ) (holds : ℕ → α → Prop) (c : ℕ) (xs : List α) : Prop :=
  ∀ (j : ℕ) (h : j < xs.length), holds ((c + j) % N) xs[j]

/-- The slot behind the last item is none of those that hold one, unless the ring is full. -/
theorem ring_slot_ne {c j n : ℕ} (hj : j < n) (hn : n < N) : (c + j) % N ≠ (c + n) % N := by
  intro h
  -- two distances below the number of slots that agree up to it are the same
  have hmod : j ≡ n [MOD N] := Nat.ModEq.add_left_cancel' c h
  have hlt := hj.trans hn
  rw [Nat.ModEq, Nat.mod_eq_of_lt hlt, Nat.mod_eq_of_lt hn] at hmod
  omega

namespace RingHolds

theorem nil (N : ℕ) (holds : ℕ → α → Prop) (c : ℕ) : RingHolds N holds c [] := by
  intro j h
  cases h

/-- A change of the slot behind the last item keeps the items, unless the ring is full. -/
theorem of_ne {c : ℕ} {xs : List α} (h : RingHolds N holds c xs) (hlen : xs.length < N)
    (hne : ∀ i x, i ≠ (c + xs.length) % N → holds i x → holds' i x) : RingHolds N holds' c xs := by
  intro j hj
  exact hne _ _ (ring_slot_ne hj hlen) (h j hj)

/-- Filling the slot behind the last item appends an item. -/
theorem concat {c : ℕ} {xs : List α} {x : α} (h : RingHolds N holds c xs)
    (hx : holds ((c + xs.length) % N) x) : RingHolds N holds c (xs ++ [x]) := by
  intro j hj
  by_cases hlt : j < xs.length
  · rw [List.getElem_append_left hlt]
    exact h j hlt
  · have hj' : j = xs.length := by
      rw [List.length_append, List.length_singleton] at hj
      omega
    subst hj'
    rw [List.getElem_concat_length rfl]
    exact hx

/-- The first item is in the slot at the cursor. -/
theorem head {c : ℕ} {x : α} {xs : List α} (h : RingHolds N holds c (x :: xs)) :
    holds (c % N) x :=
  h 0 (Nat.zero_lt_succ _)

/-- The other items start one slot further. -/
theorem tail {c : ℕ} {x : α} {xs : List α} (h : RingHolds N holds c (x :: xs)) :
    RingHolds N holds ((c + 1) % N) xs := by
  intro j hj
  have hslot : ((c + 1) % N + j) % N = (c + (j + 1)) % N := by
    rw [Nat.mod_add_mod, Nat.add_assoc, Nat.add_comm 1 j]
  rw [hslot]
  exact h (j + 1) (Nat.succ_lt_succ hj)

end RingHolds

/-- A ring between calls: the cursors and the counts of the two semaphores belong to the items that
are in it. The writer's count may be short of the free slots. -/
structure RingState (N : ℕ) (holds : ℕ → α → Prop) (readerOffset writerOffset reader writer : ℕ)
    (items : List α) : Prop where
  /-- The reader's semaphore counts the items. -/
  reader_eq : reader = items.length
  /-- The writer's semaphore counts free slots. -/
  writer_le : writer + items.length ≤ N
  /-- The reader's cursor is a slot. -/
  offset_lt : readerOffset < N
  /-- The writer's cursor is behind the last item. -/
  offset_eq : writerOffset = (readerOffset + items.length) % N
  /-- The slots hold the items. -/
  slots : RingHolds N holds readerOffset items

namespace RingState

variable {readerOffset writerOffset reader writer : ℕ} {items : List α}

/-- A ring whose cursors agree is empty. -/
theorem empty {c : ℕ} (hc : c < N) (hwriter : writer ≤ N) :
    RingState N holds c c 0 writer ([] : List α) where
  reader_eq := rfl
  writer_le := hwriter
  offset_lt := hc
  offset_eq := by rw [List.length_nil, Nat.add_zero, Nat.mod_eq_of_lt hc]
  slots := RingHolds.nil N holds c

/-- A write takes a free slot, fills it, and moves on. -/
theorem push (h : RingState N holds readerOffset writerOffset reader (writer + 1) items) {x : α}
    (hkeep : ∀ i y, i ≠ writerOffset → holds i y → holds' i y) (hx : holds' writerOffset x) :
    RingState N holds' readerOffset ((writerOffset + 1) % N) (reader + 1) writer (items ++ [x]) := by
  have hlen : items.length < N := by
    have := h.writer_le
    omega
  refine ⟨?_, ?_, h.offset_lt, ?_, ?_⟩
  · rw [List.length_append, h.reader_eq, List.length_singleton]
  · have := h.writer_le
    rw [List.length_append, List.length_singleton]
    omega
  · rw [h.offset_eq, List.length_append, List.length_singleton, Nat.mod_add_mod, Nat.add_assoc]
  · rw [h.offset_eq] at hkeep hx
    exact (h.slots.of_ne hlen hkeep).concat hx

/-- A read takes the first item, and gives its slot back unless that fails. -/
theorem pop {x : α} (h : RingState N holds readerOffset writerOffset (reader + 1) writer (x :: items))
    {writer' : ℕ} (hwriter : writer' ≤ writer + 1) :
    RingState N holds ((readerOffset + 1) % N) writerOffset reader writer' items := by
  have hle := h.writer_le
  rw [List.length_cons] at hle
  refine ⟨?_, by omega, Nat.mod_lt _ (by omega), ?_, h.slots.tail⟩
  · have := h.reader_eq
    rw [List.length_cons] at this
    omega
  · rw [h.offset_eq, List.length_cons, Nat.mod_add_mod, Nat.add_assoc, Nat.add_comm 1]

/-- An item waits exactly when the reader's semaphore is positive, and it is in the reader's slot. -/
theorem exists_cons (h : RingState N holds readerOffset writerOffset (reader + 1) writer items) :
    ∃ x xs, items = x :: xs ∧ holds readerOffset x := by
  cases items with
  | nil => cases h.reader_eq
  | cons x xs =>
      refine ⟨x, xs, rfl, ?_⟩
      have hx := h.slots.head
      rwa [Nat.mod_eq_of_lt h.offset_lt] at hx

end RingState
