import IpcPerformance.Library.Runs

/-! # Programs that share a state

A program makes calls, one after the other, and goes on with what they return. Parties run their programs
on a state they share, and between any two calls of one party the others may make theirs.

* `Program.Safe` — what a party may assume of the others and of the replies, and what it has to keep to in
  every one of its calls.
* `Parallel.Rules.run` — if every method of every party is safe on its own, the invariant and what the
  parties know between their methods hold in every state that can be reached. -/

/-- A program that makes calls, and ends with a value. -/
inductive Program (C R α : Type*)
  /-- The end. -/
  | ret (a : α)
  /-- A call, and how the program goes on with the reply. -/
  | call (c : C) (next : R → Program C R α)

namespace Program

variable {C R α β : Type*}

/-- One program, and then another one that has the value of the first. -/
def bind : Program C R α → (α → Program C R β) → Program C R β
  | ret a, f => f a
  | call c next, f => call c fun r => (next r).bind f

/-- The value of a program whose calls are answered at once. -/
def value (reply : C → R) : Program C R α → α
  | ret a => a
  | call c next => (next (reply c)).value reply

@[simp] theorem bind_ret (a : α) (f : α → Program C R β) : (ret a).bind f = f a := rfl

@[simp] theorem bind_call (c : C) (next : R → Program C R α) (f : α → Program C R β) :
    (call c next).bind f = call c fun r => (next r).bind f := rfl

theorem value_bind (reply : C → R) (program : Program C R α) (f : α → Program C R β) :
    (program.bind f).value reply = (f (program.value reply)).value reply := by
  induction program with
  | ret a => rfl
  | call c next ih => exact ih (reply c)

end Program

/-! ## Parties -/

/-- Parties `T` with local states `L` that share a state `K`. -/
structure Parallel (T K C R L J : Type*) where
  /-- What a call of a party does to the shared state, if it can return the reply there. -/
  answer : T → K → C → R → Option K
  /-- The methods of a party. -/
  method : T → L → J → Program C R L

namespace Parallel

variable {T K C R L J : Type*}

/-- The shared state, and what is left of the methods: a party that is in none has its local state. -/
structure State (sys : Parallel T K C R L J) where
  /-- What is shared. -/
  shared : K
  /-- The parties. -/
  parties : T → Program C R L

/-- What can happen next. -/
inductive Action (sys : Parallel T K C R L J)
  /-- A party calls a method. -/
  | begin (p : T) (j : J)
  /-- The call a party is waiting for returns. -/
  | reply (p : T) (r : R)

variable [DecidableEq T] (sys : Parallel T K C R L J)

/-- One step of one party. -/
def step (s : sys.State) : sys.Action → Option sys.State
  | .begin p j =>
      match s.parties p with
      | .ret l => some { s with parties := Function.update s.parties p (sys.method p l j) }
      | .call _ _ => none
  | .reply p r =>
      match s.parties p with
      | .ret _ => none
      | .call c next =>
          (sys.answer p s.shared c r).map fun shared =>
            ⟨shared, Function.update s.parties p (next r)⟩

variable {sys}

/-- **What a step does**: a method begins, or a call is answered. -/
theorem step_cases {s t : sys.State} {a : sys.Action} (h : sys.step s a = some t) :
    (∃ p j l, a = .begin p j ∧ s.parties p = .ret l ∧
      t = { s with parties := Function.update s.parties p (sys.method p l j) }) ∨
    (∃ p r c next shared, a = .reply p r ∧ s.parties p = .call c next ∧
      sys.answer p s.shared c r = some shared ∧
      t = ⟨shared, Function.update s.parties p (next r)⟩) := by
  cases a with
  | begin p j =>
      cases hparty : s.parties p with
      | ret l =>
          simp only [step, hparty] at h
          cases h
          exact .inl ⟨p, j, l, rfl, hparty, rfl⟩
      | call c next =>
          simp only [step, hparty] at h
          cases h
  | reply p r =>
      cases hparty : s.parties p with
      | ret l =>
          simp only [step, hparty] at h
          cases h
      | call c next =>
          simp only [step, hparty] at h
          obtain ⟨shared, hanswer, rfl⟩ := Option.map_eq_some_iff.mp h
          exact .inr ⟨p, r, c, next, shared, rfl, hparty, hanswer, rfl⟩

/-- The call that is answered may have the reply. -/
def Grants (granted : K → C → R → Prop) (s : sys.State) : sys.Action → Prop
  | .begin _ _ => True
  | .reply p r => ∀ c next, s.parties p = .call c next → granted s.shared c r

/-- Whether it may can be checked. -/
instance decidableGrants (granted : K → C → R → Prop) [∀ k c r, Decidable (granted k c r)] (s : sys.State)
    (a : sys.Action) : Decidable (Grants granted s a) :=
  match a with
  | .begin _ _ => isTrue trivial
  | .reply p r =>
      match hparty : s.parties p with
      | .ret _ => isTrue fun _ _ heq => by cases hparty.symm.trans heq
      | .call c next =>
          decidable_of_iff (granted s.shared c r)
            ⟨fun h c' next' heq => by cases hparty.symm.trans heq; exact h, fun h => h c next hparty⟩

/-- When every reply there is may be had anywhere, there is nothing to check along a run. -/
theorem along_grants {granted : K → C → R → Prop} {actions : List sys.Action}
    (h : ∀ p r, .reply p r ∈ actions → ∀ k c, granted k c r) (s : sys.State) :
    Along sys.step (Grants granted) s actions := by
  have hall : ∀ a ∈ actions, True := fun _ _ => trivial
  refine (along_of_forall hall s).mono fun s a ha _ => ?_
  cases a with
  | begin p j => trivial
  | reply p r => exact fun c _ _ => h p r ha s.shared c

/-! ## Rely and guarantee -/

end Parallel

/-- **A program that is safe** for a party, from a state on: whatever the others have done before a call,
and whatever granted reply it has, the call keeps the invariant and does no more than the others allow, and
in the end `post` holds. -/
def Program.Safe {T K C R α : Type*} (answer : T → K → C → R → Option K) (granted : K → C → R → Prop)
    (inv : K → Prop) (rely : T → K → K → Prop) (p : T) (post : α → K → Prop) : Program C R α → K → Prop
  | .ret a, k => post a k
  | .call c next, k =>
      ∀ k₁, rely p k k₁ → inv k₁ → ∀ r k₂, granted k₁ c r → answer p k₁ c r = some k₂ →
        inv k₂ ∧ (∀ q, q ≠ p → rely q k₁ k₂) ∧ (next r).Safe answer granted inv rely p post k₂

namespace Program.Safe

variable {T K C R α β : Type*} {answer : T → K → C → R → Option K} {granted : K → C → R → Prop}
  {inv : K → Prop} {rely : T → K → K → Prop} {p : T} {post : α → K → Prop} {program : Program C R α}
  {k k₁ : K}

/-- What holds in the end may be weakened. -/
theorem mono {post' : α → K → Prop} (h : program.Safe answer granted inv rely p post k)
    (himp : ∀ a k, post a k → post' a k) : program.Safe answer granted inv rely p post' k := by
  induction program generalizing k with
  | ret a => exact himp a k h
  | call c next ih =>
      intro k₁ hrely hinv r k₂ hgranted hanswer
      obtain ⟨hinv', hothers, hnext⟩ := h k₁ hrely hinv r k₂ hgranted hanswer
      exact ⟨hinv', hothers, ih r hnext⟩

/-- One program after the other. -/
theorem bind {post' : β → K → Prop} {f : α → Program C R β}
    (h : program.Safe answer granted inv rely p
      (fun a k => (f a).Safe answer granted inv rely p post' k) k) :
    (program.bind f).Safe answer granted inv rely p post' k := by
  induction program generalizing k with
  | ret a => exact h
  | call c next ih =>
      intro k₁ hrely hinv r k₂ hgranted hanswer
      obtain ⟨hinv', hothers, hnext⟩ := h k₁ hrely hinv r k₂ hgranted hanswer
      exact ⟨hinv', hothers, ih r hnext⟩

/-- **What the others do** does not make a program unsafe. -/
theorem stable (htrans : ∀ k₁ k₂ k₃, rely p k₁ k₂ → rely p k₂ k₃ → rely p k₁ k₃)
    (hpost : ∀ a k k₁, post a k → rely p k k₁ → inv k₁ → post a k₁)
    (h : program.Safe answer granted inv rely p post k) (hrely : rely p k k₁) (hinv : inv k₁) :
    program.Safe answer granted inv rely p post k₁ := by
  cases program with
  | ret a => exact hpost a k k₁ h hrely hinv
  | call c next => exact fun k₂ hrely' hinv' => h k₂ (htrans _ _ _ hrely hrely') hinv'

end Program.Safe

namespace Parallel

variable {T K C R L J : Type*}

/-- The rules the parties of a system keep to. -/
structure Rules (sys : Parallel T K C R L J) where
  /-- What always holds of the shared state. -/
  inv : K → Prop
  /-- What a party allows the others to do. -/
  rely : T → K → K → Prop
  /-- What a party knows between two methods. -/
  idle : T → L → K → Prop
  /-- The methods a party may call. -/
  allowed : T → J → Prop
  /-- The replies calls may have. -/
  granted : K → C → R → Prop
  /-- The others may do nothing. -/
  rely_refl (p : T) (k : K) : rely p k k
  /-- The others may do several things. -/
  rely_trans (p : T) (k₁ k₂ k₃ : K) (h : rely p k₁ k₂) (h' : rely p k₂ k₃) : rely p k₁ k₃
  /-- What a party knows remains true, whatever they do. -/
  idle_stable (p : T) (l : L) (k k₁ : K) (h : idle p l k) (hrely : rely p k k₁) (hinv : inv k₁) :
    idle p l k₁
  /-- Every method that may be called is safe. -/
  method_safe (p : T) (l : L) (j : J) (k : K) (hallowed : allowed p j) (h : idle p l k) (hinv : inv k) :
    (sys.method p l j).Safe sys.answer granted inv rely p (idle p) k

namespace Rules

variable {sys : Parallel T K C R L J} (rules : sys.Rules)

/-- What holds in every state: the invariant, and the rest of every method is safe. -/
structure Holds (s : sys.State) : Prop where
  inv : rules.inv s.shared
  safe (p : T) :
    (s.parties p).Safe sys.answer rules.granted rules.inv rules.rely p (rules.idle p) s.shared

variable {rules} [DecidableEq T]

theorem Holds.step {s t : sys.State} {a : sys.Action} (h : rules.Holds s)
    (hallowed : ∀ p j, a = .begin p j → rules.allowed p j) (hgranted : Grants rules.granted s a)
    (hstep : sys.step s a = some t) : rules.Holds t := by
  obtain ⟨p, j, l, rfl, hparty, rfl⟩ | ⟨p, r, c, next, shared, rfl, hparty, hanswer, rfl⟩ :=
    step_cases hstep
  · -- a method begins
    have hidle := h.safe p
    rw [hparty] at hidle
    refine ⟨h.inv, fun q => ?_⟩
    by_cases hq : q = p
    · subst hq
      simp only [Function.update_self]
      exact rules.method_safe q l j s.shared (hallowed q j rfl) hidle h.inv
    · simp only [Function.update_of_ne hq]
      exact h.safe q
  · -- a call returns, and the others see no more than they allow
    have hcall := h.safe p
    rw [hparty] at hcall
    obtain ⟨hinv, hothers, hnext⟩ :=
      hcall s.shared (rules.rely_refl p s.shared) h.inv r shared (hgranted c next hparty) hanswer
    refine ⟨hinv, fun q => ?_⟩
    by_cases hq : q = p
    · subst hq
      simp only [Function.update_self]
      exact hnext
    · simp only [Function.update_of_ne hq]
      exact (h.safe q).stable (rules.rely_trans q) (rules.idle_stable q) (hothers q hq) hinv

/-- **The rule of rely and guarantee**: whatever the parties call, and in whatever order their calls are
answered, the invariant holds, and every party that is in no method knows what it knew before. -/
theorem run {s t : sys.State} {actions : List sys.Action} (hinv : rules.inv s.shared)
    (hstart : ∀ p, ∃ l, s.parties p = .ret l ∧ rules.idle p l s.shared)
    (hallowed : ∀ p j, .begin p j ∈ actions → rules.allowed p j)
    (hgranted : Along sys.step (Grants rules.granted) s actions)
    (hrun : runAll sys.step s actions = some t) :
    rules.inv t.shared ∧ ∀ p l, t.parties p = .ret l → rules.idle p l t.shared := by
  have hholds : rules.Holds s := by
    refine ⟨hinv, fun p => ?_⟩
    obtain ⟨l, hparty, hidle⟩ := hstart p
    rw [hparty]
    exact hidle
  have hholds' : rules.Holds t :=
    runAll_invariant
      (P := fun s a => (∀ p j, a = .begin p j → rules.allowed p j) ∧ Grants rules.granted s a)
      (fun _ _ _ h hkeeps hstep => h.step hkeeps.1 hkeeps.2 hstep) hholds
      (hgranted.mono fun _ _ ha hgrants => ⟨fun p j hbegin => hallowed p j (hbegin ▸ ha), hgrants⟩) hrun
  refine ⟨hholds'.inv, fun p l hparty => ?_⟩
  have hidle := hholds'.safe p
  rwa [hparty] at hidle

end Rules

end Parallel
