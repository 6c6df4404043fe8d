import IpcPerformance.Library.Progress
import IpcPerformance.Library.Refinement

/-! # Machines in a context

A context is a program around a machine: a scheduler chooses what comes next, the program asks the
machine, or does something on its own, and goes on with the answer. It may also probe the machine, which
tells it what an input would be answered without giving the input.

* `Context.step_rel` — simulation is a congruence: a context cannot tell a machine from one that
  simulates it, step by step.
* `Context.settling_of_simulates` — so it gets done with the one if it gets done with the other. -/

/-- The state after an input; none if the machine blocks. -/
def Machine.advance {ι ω σ : Type*} (m : Machine ι ω σ) (s : σ) (i : ι) : Option σ :=
  (m s i).map Prod.snd

/-- What a run leads to is related to what it leads to in the other machine. -/
theorem Machine.Simulates.exists_rel {ι ω σ τ : Type*} {m : Machine ι ω σ} {m' : Machine ι ω τ}
    {P : ι → Prop} {R : σ → τ → Prop} (h : Simulates m m' P R) {s s' : σ} {t : τ} (hR : R s t)
    {is : List ι} (hP : ∀ i ∈ is, P i) (hrun : runAll m.advance s is = some s') : ∃ t', R s' t' := by
  have hkeeps : ∀ s i s', (∃ t, R s t) → P i → m.advance s i = some s' → ∃ t', R s' t' := by
    rintro s i s' ⟨t, hR⟩ hi hstep
    obtain ⟨⟨o, s''⟩, hm, rfl⟩ := Option.map_eq_some_iff.mp hstep
    have hrel := h s t i hR hi
    rw [hm] at hrel
    generalize m' t i = q at hrel
    cases hrel with
    | some hpq => exact ⟨_, hpq.2⟩
  exact runAll_invariant hkeeps ⟨t, hR⟩ (along_of_forall hP s) hrun

/-- What a program asks of its machine. -/
inductive Request (ι : Type*)
  /-- Nothing. -/
  | none
  /-- The answer to an input. -/
  | call (i : ι)
  /-- What the answer would be. -/
  | probe (i : ι)

/-- The input a request is about. -/
def Request.input? {ι : Type*} : Request ι → Option ι
  | none => .none
  | call i => some i
  | probe i => some i

/-- A program with states `π` around a machine, driven by choices `α`. -/
structure Context (ι ω α π : Type*) where
  /-- What it asks of the machine. -/
  request : π → α → Request ι
  /-- How it goes on, given the answer if it has asked; none if the choice is not possible. -/
  next : π → α → Option ω → Option π

namespace Context

variable {ι ω α π σ τ : Type*}

/-- One step of the program and the machine. -/
def step (c : Context ι ω α π) (m : Machine ι ω σ) (s : π × σ) (choice : α) : Option (π × σ) :=
  match c.request s.1 choice with
  | .none => (c.next s.1 choice none).map fun p => (p, s.2)
  | .call i =>
      (m s.2 i).bind fun answer => (c.next s.1 choice (some answer.1)).map fun p => (p, answer.2)
  | .probe i =>
      (m s.2 i).bind fun answer => (c.next s.1 choice (some answer.1)).map fun p => (p, s.2)

variable {c : Context ι ω α π} {m : Machine ι ω σ} {p p' : π} {s s' : σ} {choice : α}

/-- **What a step can be**: one without the machine, a call, or a probe. -/
theorem step_cases (h : c.step m (p, s) choice = some (p', s')) :
    (c.request p choice = .none ∧ c.next p choice none = some p' ∧ s' = s) ∨
    (∃ i answer, c.request p choice = .call i ∧ m s i = some (answer, s') ∧
      c.next p choice (some answer) = some p') ∨
    (∃ i answer t, c.request p choice = .probe i ∧ m s i = some (answer, t) ∧
      c.next p choice (some answer) = some p' ∧ s' = s) := by
  unfold step at h
  rcases hrequest : c.request p choice with _ | i | i
  · simp only [hrequest] at h
    obtain ⟨q, hq, heq⟩ := Option.map_eq_some_iff.mp h
    cases heq
    exact .inl ⟨rfl, hq, rfl⟩
  · simp only [hrequest] at h
    obtain ⟨⟨answer, t⟩, hm, hrest⟩ := Option.bind_eq_some_iff.mp h
    obtain ⟨q, hq, heq⟩ := Option.map_eq_some_iff.mp hrest
    cases heq
    exact .inr (.inl ⟨i, answer, rfl, hm, hq⟩)
  · simp only [hrequest] at h
    obtain ⟨⟨answer, t⟩, hm, hrest⟩ := Option.bind_eq_some_iff.mp h
    obtain ⟨q, hq, heq⟩ := Option.map_eq_some_iff.mp hrest
    cases heq
    exact .inr (.inr ⟨i, answer, t, rfl, hm, hq, rfl⟩)

theorem step_of_none (hrequest : c.request p choice = .none) (hnext : c.next p choice none = some p') :
    c.step m (p, s) choice = some (p', s) := by
  simp only [step, hrequest, hnext, Option.map_some]

theorem step_of_call {i : ι} {answer : ω} (hrequest : c.request p choice = .call i)
    (hm : m s i = some (answer, s')) (hnext : c.next p choice (some answer) = some p') :
    c.step m (p, s) choice = some (p', s') := by
  simp only [step, hrequest, hm, hnext, Option.bind_some, Option.map_some]

theorem step_of_probe {i : ι} {answer : ω} {t : σ} (hrequest : c.request p choice = .probe i)
    (hm : m s i = some (answer, t)) (hnext : c.next p choice (some answer) = some p') :
    c.step m (p, s) choice = some (p', s) := by
  simp only [step, hrequest, hm, hnext, Option.bind_some, Option.map_some]

/-! ## Simulation is a congruence -/

/-- The program is in the same state, and the machines are related. -/
def Rel (R : σ → τ → Prop) (x : π × σ) (y : π × τ) : Prop := x.1 = y.1 ∧ R x.2 y.2

/-- The program goes on in the same way. -/
theorem rel_next {R : σ → τ → Prop} {s : σ} {t : τ} (hR : R s t) (next : Option π) :
    Option.Rel (Rel R) (next.map fun p => (p, s)) (next.map fun p => (p, t)) := by
  cases next with
  | none => exact .none
  | some p => exact .some ⟨rfl, hR⟩

/-- What is done with related answers is related. -/
theorem rel_bind {α β γ δ : Type*} {R : α → β → Prop} {S : γ → δ → Prop} {a : Option α} {b : Option β}
    (h : Option.Rel R a b) {f : α → Option γ} {g : β → Option δ}
    (hfg : ∀ x y, R x y → Option.Rel S (f x) (g y)) : Option.Rel S (a.bind f) (b.bind g) := by
  cases h with
  | none => exact .none
  | some hR => exact hfg _ _ hR

/-- **One step in a context**: related machines allow the same step. -/
theorem step_rel {m' : Machine ι ω τ} {P : ι → Prop} {R : σ → τ → Prop}
    (h : Machine.Simulates m m' P R) {x : π × σ} {y : π × τ} (hR : Rel R x y)
    (hP : ∀ i, (c.request y.1 choice).input? = some i → P i) :
    Option.Rel (Rel R) (c.step m x choice) (c.step m' y choice) := by
  obtain ⟨p, s⟩ := x
  obtain ⟨q, t⟩ := y
  obtain ⟨rfl, hR⟩ : p = q ∧ R s t := hR
  unfold step
  rcases hrequest : c.request p choice with _ | i | i
  · exact rel_next hR _
  · refine rel_bind (h s t i hR (hP i (congrArg Request.input? hrequest))) ?_
    rintro ⟨answer, s'⟩ ⟨_, t'⟩ ⟨rfl, hR'⟩
    exact rel_next hR' _
  · -- a probe leaves both machines as they were
    refine rel_bind (h s t i hR (hP i (congrArg Request.input? hrequest))) ?_
    rintro ⟨answer, s'⟩ ⟨_, t'⟩ ⟨rfl, -⟩
    exact rel_next hR _

/-- **Invariants in a context**: what a program keeps with the one machine it keeps with the other. -/
theorem invariant_of_simulates {m' : Machine ι ω τ} {Q : ι → Prop} {R : σ → τ → Prop}
    (hsim : Machine.Simulates m m' Q R) {P : α → Prop} {Inv : π × τ → Prop}
    (hkeeps : ∀ y choice y', Inv y → P choice → c.step m' y choice = some y' → Inv y')
    (hQ : ∀ y choice i, Inv y → (c.request y.1 choice).input? = some i → Q i) {x x' : π × σ} {y : π × τ}
    (hR : Rel R x y) (hy : Inv y) {choices : List α} (hP : ∀ choice ∈ choices, P choice)
    (hrun : runAll (c.step m) x choices = some x') : ∃ y', Rel R x' y' ∧ Inv y' := by
  have hkept : ∀ x choice x', (∃ y, Rel R x y ∧ Inv y) → P choice → c.step m x choice = some x' →
      ∃ y', Rel R x' y' ∧ Inv y' := by
    rintro x choice x' ⟨y, hR, hy⟩ hchoice hstep
    have hrel := step_rel hsim hR (hQ y choice · hy)
    rw [hstep] at hrel
    generalize hy' : c.step m' y choice = z at hrel
    cases hrel with
    | some hR' => exact ⟨_, hR', hkeeps y choice _ hy hchoice hy'⟩
  exact runAll_invariant hkept ⟨y, hR, hy⟩ (along_of_forall hP x) hrun

/-- **Getting done in a context**: what is said of the program alone carries over to a machine that
simulates. -/
theorem settling_of_simulates {m' : Machine ι ω τ} {Q : ι → Prop} {R : σ → τ → Prop}
    (hsim : Machine.Simulates m m' Q R) {P : π → α → Prop} {Inv : π × τ → Prop} {Done : π → Prop}
    {idle : α → Bool} {work : π → ℕ}
    (h : Settling (c.step m') (fun y choice => P y.1 choice) Inv (fun y => Done y.1) idle
      fun y => work y.1)
    (hQ : ∀ y choice i, Inv y → (c.request y.1 choice).input? = some i → Q i) :
    Settling (c.step m) (fun x choice => P x.1 choice) (fun x => ∃ y, Rel R x y ∧ Inv y)
      (fun x => Done x.1) idle fun x => work x.1 := by
  refine h.of_bisimilar (fun y x choice hR hy => step_rel hsim hR (hQ y choice · hy)) ?_ ?_ ?_
  · intro y x choice hR
    rw [hR.1]
  · intro y x hR
    rw [hR.1]
  · intro y x hR
    rw [hR.1]

end Context
