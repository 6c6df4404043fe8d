import Mathlib

/-! # Isolation

Parties that share a machine, each with inputs of its own. A party is isolated if the answers to its
inputs are those it would get if nobody else gave any.

* `Responder.Unwinding.isolated` — the unwinding rule: a relation that the own inputs keep, with equal
  answers, and that the other inputs do not touch.
* `Access.Framed.isolated` — a party is isolated if, under an invariant, the others leave its part of the
  state alone. -/

/-- A machine with states `σ` that answers every input `ι` with an `ω`. -/
abbrev Responder (ι ω σ : Type*) : Type _ := σ → ι → ω × σ

namespace Responder

variable {ι ω σ : Type*}

/-- The inputs with their answers. -/
def replies (m : Responder ι ω σ) : σ → List ι → List (ι × ω)
  | _, [] => []
  | s, i :: is => (i, (m s i).1) :: replies m (m s i).2 is

@[simp] theorem replies_nil (m : Responder ι ω σ) (s : σ) : m.replies s [] = [] := rfl

theorem replies_cons (m : Responder ι ω σ) (s : σ) (i : ι) (is : List ι) :
    m.replies s (i :: is) = (i, (m s i).1) :: m.replies (m s i).2 is := rfl

/-- The answers to the own inputs are those of a run without the others. -/
def Isolated (m : Responder ι ω σ) (mine : ι → Bool) (s : σ) : Prop :=
  ∀ is, (m.replies s is).filter (fun p => mine p.1) = m.replies s (is.filter mine)

/-- States that look the same to a party: its own inputs keep them so and get the same answer, and the
inputs of the others do not change how a state looks. -/
structure Unwinding (m : Responder ι ω σ) (mine : ι → Bool) (R : σ → σ → Prop) : Prop where
  own {s t : σ} {i : ι} (hR : R s t) (hi : mine i = true) :
    (m s i).1 = (m t i).1 ∧ R (m s i).2 (m t i).2
  other {s t : σ} {i : ι} (hR : R s t) (hi : mine i = false) : R (m s i).2 t

/-- From states that look the same, a party gets the same answers with and without the others. -/
theorem Unwinding.replies_eq {m : Responder ι ω σ} {mine : ι → Bool} {R : σ → σ → Prop}
    (h : Unwinding m mine R) {s t : σ} (hR : R s t) (is : List ι) :
    (m.replies s is).filter (fun p => mine p.1) = m.replies t (is.filter mine) := by
  induction is generalizing s t with
  | nil => rfl
  | cons i is ih =>
      rw [replies_cons]
      by_cases hi : mine i = true
      · obtain ⟨hanswer, hnext⟩ := h.own hR hi
        rw [List.filter_cons_of_pos hi, replies_cons, ← ih hnext, ← hanswer]
        exact List.filter_cons_of_pos hi
      · rw [List.filter_cons_of_neg hi, ← ih (h.other hR (Bool.eq_false_iff.mpr hi))]
        exact List.filter_cons_of_neg hi

/-- **The unwinding rule.** -/
theorem Unwinding.isolated {m : Responder ι ω σ} {mine : ι → Bool} {R : σ → σ → Prop}
    (h : Unwinding m mine R) {s : σ} (hR : R s s) : m.Isolated mine s := by
  intro is
  exact h.replies_eq hR is

end Responder

/-! ## Parts of a state -/

/-- Parties `P` that act on parts `ν` of a state. -/
structure Access (P σ ν : Type*) where
  /-- The part of a party. -/
  get : P → σ → ν
  /-- The state with another part of a party. -/
  put : P → ν → σ → σ

namespace Access

variable {P ι ω σ ν : Type*}

/-- The parties answer their inputs on their own parts. -/
def responder (a : Access P σ ν) (call : P → Responder ι ω ν) : Responder (P × ι) ω σ :=
  fun s i => ((call i.1 (a.get i.1 s) i.2).1, a.put i.1 (call i.1 (a.get i.1 s) i.2).2 s)

/-- A party finds what it has left, and under an invariant the others do not touch its part. -/
structure Framed (a : Access P σ ν) (call : P → Responder ι ω ν) (I : σ → Prop) (p : P) : Prop where
  get_put (v : ν) (s : σ) : a.get p (a.put p v s) = v
  inv {s : σ} (h : I s) (i : P × ι) : I (a.responder call s i).2
  frame {s : σ} (h : I s) {i : P × ι} (hne : i.1 ≠ p) :
    a.get p (a.responder call s i).2 = a.get p s

variable {a : Access P σ ν} {call : P → Responder ι ω ν} {I : σ → Prop} {p : P}

/-- It does not notice what happens to the other parts. -/
theorem Framed.unwinding [DecidableEq P] (h : a.Framed call I p) :
    (a.responder call).Unwinding (fun i => i.1 = p) (fun s t => I s ∧ a.get p s = a.get p t) where
  own := by
    rintro s t ⟨q, i⟩ ⟨hI, hview⟩ hq
    obtain rfl := of_decide_eq_true hq
    refine ⟨?_, h.inv hI _, ?_⟩
    · simp only [responder, hview]
    · simp only [responder, h.get_put, hview]
  other := by
    rintro s t i ⟨hI, hview⟩ hi
    exact ⟨h.inv hI i, (h.frame hI (of_decide_eq_false hi)).trans hview⟩

/-- **The frame rule**: the party is isolated from the others. -/
theorem Framed.isolated [DecidableEq P] (h : a.Framed call I p) {s : σ} (hI : I s) :
    (a.responder call).Isolated (fun i => i.1 = p) s :=
  h.unwinding.isolated ⟨hI, rfl⟩

end Access
