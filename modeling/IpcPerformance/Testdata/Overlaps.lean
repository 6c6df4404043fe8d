import IpcPerformance.Library.Runs
import IpcPerformance.Library.Survivors

/-! # The overlap analysis of the traces

The loop of `main` in `testdata/main.py` that goes through the events of a trace and keeps the list
`areas`: an event deletes the areas it overlaps, by index and from behind, and is added at the end.

* `sweep_eq` — the inner loop deletes exactly what is overlapped.
* `areasLoop_eq` — what `areas` and `count` are after all events. -/

namespace IpcPerformance

/-- Address, length and name of an event; Python numbers have no bounds. -/
structure Event where
  address : ℤ
  length : ℤ
  name : String
  deriving DecidableEq

/-- `overlaps`. -/
def overlaps (x y : Event) : Bool :=
  max x.address y.address < min (x.address + x.length) (y.address + y.length)

/-- The address belongs to the half-open range of an event. -/
def Event.Contains (e : Event) (address : ℤ) : Prop :=
  e.address ≤ address ∧ address < e.address + e.length

/-- The variables of the loop. -/
structure Areas where
  areas : List Event
  count : ℕ
  deriving DecidableEq

/-- The body of the inner loop at an index; there is no state when the index is out of range. -/
def Areas.visit (add : Event) (s : Areas) (i : ℕ) : Option Areas :=
  match s.areas[i]? with
  | none => none
  | some old => if overlaps add old then some ⟨s.areas.eraseIdx i, s.count + 1⟩ else some s

/-- The inner loop, `for i in range(n - 1, -1, -1)`. -/
def Areas.sweep (add : Event) : ℕ → Areas → Option Areas
  | 0, s => some s
  | i + 1, s => (s.visit add i).bind (Areas.sweep add i)

/-- The body of the outer loop. -/
def Areas.step (s : Areas) (add : Event) : Option Areas :=
  (Areas.sweep add s.areas.length s).map fun s => { s with areas := s.areas ++ [add] }

/-- The outer loop, over all addresses. -/
def areasLoop (addresses : List Event) : Option Areas := runAll Areas.step ⟨[], 0⟩ addresses

/-! ## Overlaps -/

theorem overlaps_comm (x y : Event) : overlaps x y = overlaps y x := by
  unfold overlaps
  rw [max_comm, min_comm]

/-- Events overlap exactly when they have an address in common. -/
theorem overlaps_iff (x y : Event) :
    overlaps x y = true ↔ ∃ address, x.Contains address ∧ y.Contains address := by
  unfold overlaps Event.Contains
  rw [decide_eq_true_iff, max_lt_iff, lt_min_iff, lt_min_iff]
  constructor
  · rintro ⟨⟨hx, hxy⟩, hyx, hy⟩
    exact ⟨max x.address y.address, ⟨le_max_left _ _, max_lt hx hyx⟩, le_max_right _ _,
      max_lt hxy hy⟩
  · rintro ⟨address, ⟨hx, hx'⟩, hy, hy'⟩
    omega

/-! ## The loops -/

variable {add : Event} {areas : List Event} {count n : ℕ}

/-- An area that is overlapped is deleted; those in front of it stay where they are. -/
theorem visit_of_overlaps (hn : n < areas.length) (h : overlaps add areas[n] = true) :
    Areas.visit add ⟨areas, count⟩ n = some ⟨areas.take n ++ areas.drop (n + 1), count + 1⟩ := by
  rw [← List.eraseIdx_eq_take_drop_succ]
  simp only [Areas.visit, List.getElem?_eq_getElem hn, if_pos h]

/-- Another area is left alone. -/
theorem visit_of_not_overlaps (hn : n < areas.length) (h : overlaps add areas[n] = false) :
    Areas.visit add ⟨areas, count⟩ n = some ⟨areas, count⟩ := by
  simp only [Areas.visit, List.getElem?_eq_getElem hn, h, Bool.false_eq_true, if_false]

/-- **The inner loop** deletes the areas that are overlapped, of the first `n` ones, and counts them. -/
theorem sweep_eq (add : Event) (count : ℕ) (hn : n ≤ areas.length) :
    Areas.sweep add n ⟨areas, count⟩ =
      some ⟨(areas.take n).filter (fun old => !overlaps add old) ++ areas.drop n,
        count + (areas.take n).countP (overlaps add)⟩ := by
  -- the loop runs from behind, so the areas in front are those it has yet to visit
  induction n generalizing areas count with
  | zero => rfl
  | succ n ih =>
      have hlen : (areas.take n).length = n := List.length_take_of_le (Nat.le_of_succ_le hn)
      have htake : areas.take (n + 1) = areas.take n ++ [areas[n]] :=
        List.take_succ_eq_append_getElem hn
      rw [Areas.sweep, htake, List.filter_append, List.countP_append, List.countP_singleton]
      cases hoverlaps : overlaps add areas[n] with
      | true =>
          have hle : n ≤ (areas.take n ++ areas.drop (n + 1)).length := by
            rw [List.length_append, hlen]
            exact Nat.le_add_right _ _
          have hnone : [areas[n]].filter (fun old => !overlaps add old) = [] := by
            simp [hoverlaps]
          rw [visit_of_overlaps hn hoverlaps, Option.bind_some, ih _ hle, List.take_left' hlen,
            List.drop_left' hlen, hnone, List.append_nil, if_pos rfl, Nat.add_assoc, Nat.add_comm 1]
      | false =>
          have hsome : [areas[n]].filter (fun old => !overlaps add old) = [areas[n]] := by
            simp [hoverlaps]
          rw [visit_of_not_overlaps hn hoverlaps, Option.bind_some, ih _ (Nat.le_of_succ_le hn), hsome,
            List.append_assoc, List.singleton_append, ← List.drop_eq_getElem_cons hn]
          rfl

/-- The outer loop keeps what survives of the events so far. -/
theorem step_eq (s : Areas) (add : Event) :
    s.step add = some ⟨s.areas.filter (fun old => !overlaps add old) ++ [add],
      s.count + s.areas.countP (overlaps add)⟩ := by
  have hsweep := sweep_eq add s.count (le_refl s.areas.length)
  rw [List.take_length, List.drop_length, List.append_nil] at hsweep
  rw [Areas.step, hsweep]
  rfl

/-- **After all events** `areas` holds those that no later event overlaps, in their order, and `count` is
the number of the others. -/
theorem areasLoop_survivors (addresses : List Event) :
    areasLoop addresses = some ⟨survivors overlaps addresses, struckOut overlaps addresses⟩ := by
  induction addresses using List.reverseRecOn with
  | nil => rfl
  | append_singleton addresses add ih =>
      refine runAll_concat_eq_some.mpr ⟨_, ih, ?_⟩
      rw [step_eq, survivors_concat, struckOut_concat]

/-- **The analysis of every sequence of events**: the list and the count are those of the events that no
later one overlaps, the areas are disjoint, and to overlap is to have an address in common. -/
theorem areasLoop_eq (addresses : List Event) :
    (∃ s, areasLoop addresses = some s ∧ s.areas = survivors overlaps addresses ∧
      s.count = struckOut overlaps addresses ∧
      s.areas.Pairwise fun x y => overlaps x y = false ∧ overlaps y x = false) ∧
    ∀ x y, overlaps x y = overlaps y x ∧
      (overlaps x y = true ↔ ∃ address, x.Contains address ∧ y.Contains address) := by
  refine ⟨⟨_, areasLoop_survivors addresses, rfl, rfl, ?_⟩,
    fun x y => ⟨overlaps_comm x y, overlaps_iff x y⟩⟩
  refine (pairwise_survivors overlaps addresses).imp ?_
  intro x y hxy
  exact ⟨(overlaps_comm x y).trans hxy, hxy⟩

end IpcPerformance
