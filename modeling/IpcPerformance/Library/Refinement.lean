import Mathlib

/-! # Machines with inputs and outputs

A `Machine` answers every input with an output, or blocks. Its outputs are all an observer gets to
see of it.

* `Machine.outputs_eq` — machines that do the same step by step have the same outputs.
* `Machine.Simulates.exists_answer` — what the one answers the other one does as well.
* `Machine.forall₂_outputs` — what holds of every answer holds of all outputs. -/

/-- A machine with states `σ` that answers inputs `ι` with outputs `ω`; without an answer it blocks. -/
abbrev Machine (ι ω σ : Type*) : Type _ := σ → ι → Option (ω × σ)

namespace Machine

variable {ι ω σ τ : Type*}

/-- The outputs for a list of inputs, if the machine does not block. -/
def outputs (m : Machine ι ω σ) : σ → List ι → Option (List ω)
  | _, [] => some []
  | s, i :: is => (m s i).bind fun p => (outputs m p.2 is).map fun os => p.1 :: os

theorem outputs_cons_eq_some {m : Machine ι ω σ} {s : σ} {i : ι} {is : List ι} {os : List ω} :
    m.outputs s (i :: is) = some os ↔
      ∃ o s' os', m s i = some (o, s') ∧ m.outputs s' is = some os' ∧ os = o :: os' := by
  rw [outputs, Option.bind_eq_some_iff]
  constructor
  · rintro ⟨⟨o, s'⟩, hstep, hrest⟩
    obtain ⟨os', hrun, rfl⟩ := Option.map_eq_some_iff.mp hrest
    exact ⟨o, s', os', hstep, hrun, rfl⟩
  · rintro ⟨o, s', os', hstep, hrun, rfl⟩
    exact ⟨(o, s'), hstep, Option.map_eq_some_iff.mpr ⟨os', hrun, rfl⟩⟩

/-- Related states answer, or block, in the same way, on inputs that meet `P`. -/
def Simulates (m : Machine ι ω σ) (m' : Machine ι ω τ) (P : ι → Prop) (R : σ → τ → Prop) : Prop :=
  ∀ s t i, R s t → P i → Option.Rel (fun p q => p.1 = q.1 ∧ R p.2 q.2) (m s i) (m' t i)

/-- **Lockstep simulation**: related states have the same outputs. -/
theorem outputs_eq {m : Machine ι ω σ} {m' : Machine ι ω τ} {P : ι → Prop} {R : σ → τ → Prop}
    (h : Simulates m m' P R) {s : σ} {t : τ} (hR : R s t) {is : List ι} (hP : ∀ i ∈ is, P i) :
    m.outputs s is = m'.outputs t is := by
  induction is generalizing s t with
  | nil => rfl
  | cons i is ih =>
      rw [List.forall_mem_cons] at hP
      rw [outputs, outputs]
      -- both block, or both give the same answer
      have hstep := h s t i hR hP.1
      revert hstep
      generalize m s i = p
      generalize m' t i = q
      intro hstep
      cases hstep with
      | none => rfl
      | some hpq => rw [Option.bind_some, Option.bind_some, hpq.1, ih hpq.2 hP.2]

/-- What the second machine answers, the first one does. -/
theorem Simulates.exists_answer {m : Machine ι ω σ} {m' : Machine ι ω τ} {P : ι → Prop}
    {R : σ → τ → Prop} (h : Simulates m m' P R) {s : σ} {t t' : τ} {i : ι} {o : ω} (hR : R s t)
    (hP : P i) (hstep : m' t i = some (o, t')) : ∃ s', m s i = some (o, s') ∧ R s' t' := by
  have hrel := h s t i hR hP
  rw [hstep] at hrel
  generalize m s i = p at hrel
  cases hrel with
  | some hpq => exact ⟨_, congrArg some (Prod.ext hpq.1 rfl), hpq.2⟩

/-- What holds of every answer, as long as an invariant does, holds of all outputs. -/
theorem forall₂_outputs {m : Machine ι ω σ} (Inv : σ → Prop) {Q : ι → ω → Prop}
    (hstep : ∀ s i o s', Inv s → m s i = some (o, s') → Inv s' ∧ Q i o) {s : σ} (hs : Inv s)
    {is : List ι} {os : List ω} (hrun : m.outputs s is = some os) : List.Forall₂ Q is os := by
  induction is generalizing s os with
  | nil =>
      cases hrun
      exact .nil
  | cons i is ih =>
      obtain ⟨o, s', os', hi, hrest, rfl⟩ := outputs_cons_eq_some.mp hrun
      obtain ⟨hs', hQ⟩ := hstep s i o s' hs hi
      exact .cons hQ (ih hs' hrest)

/-- A machine that never blocks has outputs. -/
theorem exists_outputs {m : Machine ι ω σ} (h : ∀ s i, ∃ p, m s i = some p) (s : σ) (is : List ι) :
    ∃ os, m.outputs s is = some os := by
  induction is generalizing s with
  | nil => exact ⟨[], rfl⟩
  | cons i is ih =>
      obtain ⟨⟨o, s'⟩, hstep⟩ := h s i
      obtain ⟨os, hrun⟩ := ih s'
      exact ⟨o :: os, outputs_cons_eq_some.mpr ⟨o, s', os, hstep, hrun, rfl⟩⟩

end Machine
