import Mathlib

/-! # Runs of a machine that answers

A `Stepper` produces a result with every step, or stops with a fault. `Stepper.Delivers` is the proof
rule for machines that work off a backlog: an invariant knows the values still to be delivered, every
step delivers at most the next one, and a measure says how much there is left to do. From it
`Delivers.run` follows for every number of steps, and with `Delivers.run_complete` enough steps
deliver everything. -/

/-- A machine with states `σ` that answers every step with an `ρ`, or stops with an `ε`. -/
abbrev Stepper (ε ρ σ : Type*) : Type _ := σ → Except ε (ρ × σ)

namespace Stepper

variable {ε ρ σ β : Type*}

/-- The answers of the first `n` steps, and the state they lead to. -/
def run (step : Stepper ε ρ σ) : ℕ → σ → Except ε (List ρ × σ)
  | 0, s => .ok ([], s)
  | n + 1, s =>
      match step s with
      | .error e => .error e
      | .ok (r, s') => (run step n s').map fun p => (r :: p.1, p.2)

theorem run_succ_of_ok {step : Stepper ε ρ σ} {s s' t : σ} {r : ρ} {rs : List ρ} {n : ℕ}
    (hstep : step s = .ok (r, s')) (hrun : step.run n s' = .ok (rs, t)) :
    step.run (n + 1) s = .ok (r :: rs, t) := by
  rw [run, hstep]
  simp only [hrun, Except.map]

/-- A machine that delivers, in order, the values its invariant promises. An answer delivers at most
one value, and the measure falls until nothing is left. -/
structure Delivers (step : Stepper ε ρ σ) (visible : ρ → Option β) (work : σ → ℕ)
    (Inv : σ → List β → Prop) : Prop where
  /-- A step succeeds, delivers the next value or none, and gets something done. -/
  step_cases {s : σ} {expected : List β} (h : Inv s expected) :
    ∃ r s' rest, step s = .ok (r, s') ∧ Inv s' rest ∧
      expected = (visible r).toList ++ rest ∧ (work s' < work s ∨ work s' = 0)
  /-- With no work left nothing is owed. -/
  done {s : σ} {expected : List β} (h : Inv s expected) (hwork : work s = 0) : expected = []

namespace Delivers

variable {step : Stepper ε ρ σ} {visible : ρ → Option β} {work : σ → ℕ} {Inv : σ → List β → Prop}

/-- Any number of steps succeeds and delivers a prefix of what is owed. -/
theorem run (hd : Delivers step visible work Inv) (n : ℕ) {s : σ} {expected : List β}
    (h : Inv s expected) :
    ∃ rs t rest, step.run n s = .ok (rs, t) ∧ Inv t rest ∧
      expected = rs.filterMap visible ++ rest ∧ work t ≤ work s - n := by
  induction n generalizing s expected with
  | zero => exact ⟨[], s, expected, rfl, h, rfl, le_rfl⟩
  | succ n ih =>
      obtain ⟨r, s', rest, hstep, hinv, hexpected, hwork⟩ := hd.step_cases h
      obtain ⟨rs, t, rest', hrun, hinv', hrest, hwork'⟩ := ih hinv
      refine ⟨r :: rs, t, rest', run_succ_of_ok hstep hrun, hinv', ?_, by omega⟩
      rw [hexpected, hrest, List.filterMap_cons]
      cases visible r <;> simp

/-- Enough steps deliver everything that is owed, and nothing else. -/
theorem run_complete (hd : Delivers step visible work Inv) {n : ℕ} {s : σ} {expected : List β}
    (h : Inv s expected) (hn : work s ≤ n) :
    ∃ rs t, step.run n s = .ok (rs, t) ∧ rs.filterMap visible = expected := by
  obtain ⟨rs, t, rest, hrun, hinv, hexpected, hwork⟩ := hd.run n h
  have hrest : rest = [] := hd.done hinv (by omega)
  exact ⟨rs, t, hrun, by rw [hexpected, hrest, List.append_nil]⟩

end Delivers

end Stepper

/-! ## Runs of a machine that is driven

A machine that is driven takes an input with every step; an input it is not ready for has no step.
`runAll_invariant` is the induction over such runs, `runAll_history` the one for invariants that speak
of the inputs so far, `runAll_verdict` the one for runs that can go wrong, and `Along` says that all
steps of a run meet a condition on the input and the state before the step. `runFor` takes its inputs from
a stream; `runFor_unique` says that such a run has one end at most. -/

section Driven

variable {σ ι : Type*}

/-- The state after a list of inputs. -/
def runAll (step : σ → ι → Option σ) : σ → List ι → Option σ
  | s, [] => some s
  | s, i :: is => (step s i).bind fun s' => runAll step s' is

/-- Every step of the run meets `P`. -/
def Along (step : σ → ι → Option σ) (P : σ → ι → Prop) : σ → List ι → Prop
  | _, [] => True
  | s, i :: is => P s i ∧ ∀ s', step s i = some s' → Along step P s' is

/-- Whether a run meets a condition can be checked step by step. -/
instance decidableAlong (step : σ → ι → Option σ) (P : σ → ι → Prop) [∀ s i, Decidable (P s i)] :
    (s : σ) → (is : List ι) → Decidable (Along step P s is)
  | _, [] => .isTrue trivial
  | s, i :: is =>
      match h : step s i with
      | none => decidable_of_iff (P s i) (by simp [Along, h])
      | some s' =>
          have := decidableAlong step P s' is
          decidable_of_iff (P s i ∧ Along step P s' is) (by simp [Along, h])

theorem runAll_cons_eq_some {step : σ → ι → Option σ} {s t : σ} {i : ι} {is : List ι} :
    runAll step s (i :: is) = some t ↔ ∃ s', step s i = some s' ∧ runAll step s' is = some t :=
  Option.bind_eq_some_iff

/-- A run splits at any point. -/
theorem runAll_append (step : σ → ι → Option σ) (s : σ) (is js : List ι) :
    runAll step s (is ++ js) = (runAll step s is).bind fun t => runAll step t js := by
  induction is generalizing s with
  | nil => rfl
  | cons i is ih =>
      rw [List.cons_append, runAll, runAll, Option.bind_assoc]
      congr 1
      funext s'
      exact ih s'

/-- **The invariant rule**: what every step that meets `P` preserves holds after every run whose
steps meet it. -/
theorem runAll_invariant {step : σ → ι → Option σ} {P : σ → ι → Prop} {Inv : σ → Prop}
    (hstep : ∀ s i s', Inv s → P s i → step s i = some s' → Inv s') {s t : σ} {is : List ι}
    (hs : Inv s) (halong : Along step P s is) (hrun : runAll step s is = some t) : Inv t := by
  induction is generalizing s with
  | nil =>
      cases hrun
      exact hs
  | cons i is ih =>
      obtain ⟨s', hi, hrun⟩ := runAll_cons_eq_some.mp hrun
      exact ih (hstep s i s' hs halong.1 hi) (halong.2 s' hi) hrun

/-- A condition on the inputs alone holds along a run when all inputs meet it. -/
theorem along_of_forall {step : σ → ι → Option σ} {P : ι → Prop} {is : List ι}
    (h : ∀ i ∈ is, P i) (s : σ) : Along step (fun _ i => P i) s is := by
  induction is generalizing s with
  | nil => trivial
  | cons i is ih =>
      rw [List.forall_mem_cons] at h
      exact ⟨h.1, fun s' _ => ih h.2 s'⟩

/-- What follows from a condition holds along a run that meets it. -/
theorem Along.mono {step : σ → ι → Option σ} {P Q : σ → ι → Prop} {s : σ} {is : List ι}
    (h : Along step P s is) (himp : ∀ s, ∀ i ∈ is, P s i → Q s i) : Along step Q s is := by
  induction is generalizing s with
  | nil => trivial
  | cons i is ih =>
      rw [Along] at h ⊢
      exact ⟨himp s i List.mem_cons_self h.1, fun s' hi =>
        ih (h.2 s' hi) fun s j hj => himp s j (List.mem_cons_of_mem i hj)⟩

/-- What every step preserves holds after every run. -/
theorem runAll_preserves {step : σ → ι → Option σ} {Inv : σ → Prop}
    (hstep : ∀ s i s', Inv s → step s i = some s' → Inv s') {s t : σ} {is : List ι} (hs : Inv s)
    (hrun : runAll step s is = some t) : Inv t :=
  runAll_invariant (P := fun _ _ => True) (fun s i s' h _ hi => hstep s i s' h hi) hs
    (along_of_forall (fun _ _ => trivial) s) hrun

/-- **The verdict rule**: if steps that meet `P` keep a state good, others make it bad, and bad states
stay bad, then the end of a run tells whether all of its steps met `P`. -/
theorem runAll_verdict {step : σ → ι → Option σ} {P : σ → ι → Prop} {Good Bad : σ → Prop}
    (hgood : ∀ s i s', Good s → P s i → step s i = some s' → Good s')
    (hfail : ∀ s i s', Good s → ¬ P s i → step s i = some s' → Bad s')
    (hbad : ∀ s i s', Bad s → step s i = some s' → Bad s') {s t : σ} {is : List ι} (hs : Good s)
    (hrun : runAll step s is = some t) :
    (Along step P s is ∧ Good t) ∨ (¬ Along step P s is ∧ Bad t) := by
  induction is generalizing s with
  | nil =>
      cases hrun
      exact .inl ⟨trivial, hs⟩
  | cons i is ih =>
      obtain ⟨s', hi, hrun⟩ := runAll_cons_eq_some.mp hrun
      by_cases hP : P s i
      · rcases ih (hgood s i s' hs hP hi) hrun with ⟨halong, ht⟩ | ⟨halong, ht⟩
        · refine .inl ⟨⟨hP, fun s'' hi' => ?_⟩, ht⟩
          rw [hi] at hi'
          cases hi'
          exact halong
        · exact .inr ⟨fun h => halong (h.2 s' hi), ht⟩
      · exact .inr ⟨fun h => hP h.1, runAll_preserves hbad (hfail s i s' hs hP hi) hrun⟩

theorem runAll_concat_eq_some {step : σ → ι → Option σ} {s t : σ} {i : ι} {is : List ι} :
    runAll step s (is ++ [i]) = some t ↔ ∃ s', runAll step s is = some s' ∧ step s' i = some t := by
  rw [runAll_append, Option.bind_eq_some_iff]
  simp only [runAll, Option.bind_fun_some]

/-- **The history rule**: an invariant may speak of the inputs so far. -/
theorem runAll_history {step : σ → ι → Option σ} {s : σ} (Inv : List ι → σ → Prop)
    (hnil : Inv [] s)
    (hstep : ∀ is s' i t, Inv is s' → step s' i = some t → Inv (is ++ [i]) t) {is : List ι} {t : σ}
    (hrun : runAll step s is = some t) : Inv is t := by
  induction is using List.reverseRecOn generalizing t with
  | nil =>
      cases hrun
      exact hnil
  | append_singleton is i ih =>
      obtain ⟨s', hrun, hi⟩ := runAll_concat_eq_some.mp hrun
      exact hstep is s' i t (ih hrun) hi

/-! ### Streams of inputs -/

/-- The state after the first `n` inputs of a stream. -/
def runFor (step : σ → ι → Option σ) (s : σ) (input : ℕ → ι) (n : ℕ) : Option σ :=
  runAll step s ((List.range n).map input)

theorem runFor_succ_eq_some {step : σ → ι → Option σ} {s t : σ} {input : ℕ → ι} {n : ℕ} :
    runFor step s input (n + 1) = some t ↔
      ∃ s', runFor step s input n = some s' ∧ step s' (input n) = some t := by
  rw [runFor, List.range_succ, List.map_append]
  exact runAll_concat_eq_some

/-- A run has passed all earlier states. -/
theorem exists_runFor_of_le {step : σ → ι → Option σ} {s t : σ} {input : ℕ → ι} {m n : ℕ}
    (hle : m ≤ n) (hrun : runFor step s input n = some t) : ∃ s', runFor step s input m = some s' := by
  induction n, hle using Nat.le_induction generalizing t with
  | base => exact ⟨t, hrun⟩
  | succ n hle ih =>
      obtain ⟨s', hrun, -⟩ := runFor_succ_eq_some.mp hrun
      exact ih hrun

/-- A state without steps is the last one. -/
theorem le_of_runFor {step : σ → ι → Option σ} {s s' t : σ} {input : ℕ → ι} {m n : ℕ}
    (hm : runFor step s input m = some s') (hlast : ∀ i, step s' i = none)
    (hn : runFor step s input n = some t) : n ≤ m := by
  by_contra hlt
  obtain ⟨next, hrun⟩ := exists_runFor_of_le (show m + 1 ≤ n by omega) hn
  obtain ⟨before, hbefore, hstep⟩ := runFor_succ_eq_some.mp hrun
  rw [hm] at hbefore
  cases hbefore
  rw [hlast] at hstep
  cases hstep

/-- **A run along a stream has one end at most.** -/
theorem runFor_unique {step : σ → ι → Option σ} {s s' t : σ} {input : ℕ → ι} {m n : ℕ}
    (hm : runFor step s input m = some s') (hlast : ∀ i, step s' i = none)
    (hn : runFor step s input n = some t) (hlast' : ∀ i, step t i = none) : s' = t := by
  have heq : m = n := le_antisymm (le_of_runFor hn hlast' hm) (le_of_runFor hm hlast hn)
  rw [heq, hn] at hm
  exact (Option.some.inj hm).symm

end Driven
