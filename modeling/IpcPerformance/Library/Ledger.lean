import IpcPerformance.Library.Runs

/-! # Ledgers of resources

A log of what has been acquired and released. A log settles if nothing is released that is not held at
that time, and what it settles to is what is held at its end. A resource may be acquired several times,
so what is held is a multiset.

* `Settles.acquire`, `Settles.release` — what an event does; `acquireAll`, `releaseAll` — several of
  them.
* `Settles.count_eq` — every resource has been released as often as it was acquired, unless it is held.
* `Settles.map` — a log settles under other names of the resources, too.
* `SettlesWithin` — a log that settles, with a limit on what is held at any time. -/

variable {R S : Type*}

/-- What happens to a resource. -/
inductive LedgerEvent (R : Type*)
  | acquired (r : R)
  | released (r : R)
  deriving DecidableEq

/-- The event under another name of the resource. -/
def LedgerEvent.map (f : R → S) : LedgerEvent R → LedgerEvent S
  | acquired r => acquired (f r)
  | released r => released (f r)

namespace Ledger

variable [DecidableEq R] [DecidableEq S]

/-- What is held after an event; none when something is released that is not held. -/
def account (held : Multiset R) : LedgerEvent R → Option (Multiset R)
  | .acquired r => some (r ::ₘ held)
  | .released r => if r ∈ held then some (held.erase r) else none

/-- The log settles: `held` is what is held at its end. -/
def Settles (log : List (LedgerEvent R)) (held : Multiset R) : Prop :=
  runAll account 0 log = some held

instance (log : List (LedgerEvent R)) (held : Multiset R) : Decidable (Settles log held) :=
  inferInstanceAs (Decidable (_ = _))

variable {log : List (LedgerEvent R)} {held : Multiset R} {r : R}

theorem settles_nil : Settles ([] : List (LedgerEvent R)) 0 := rfl

theorem Settles.acquire (h : Settles log held) (r : R) :
    Settles (log ++ [.acquired r]) (r ::ₘ held) :=
  runAll_concat_eq_some.mpr ⟨held, h, rfl⟩

theorem Settles.release (h : Settles log (r ::ₘ held)) : Settles (log ++ [.released r]) held := by
  refine runAll_concat_eq_some.mpr ⟨_, h, ?_⟩
  rw [account, if_pos (Multiset.mem_cons_self r held), Multiset.erase_cons_head]

/-- Several resources are acquired, one after the other. -/
theorem Settles.acquireAll (h : Settles log held) (rs : List R) :
    Settles (log ++ rs.map .acquired) ((rs : Multiset R) + held) := by
  induction rs generalizing log held with
  | nil => rwa [List.map_nil, List.append_nil, Multiset.coe_nil, zero_add]
  | cons r rs ih =>
      have hrest := ih (h.acquire r)
      rw [List.append_assoc, Multiset.add_cons, ← Multiset.cons_add, Multiset.cons_coe] at hrest
      exact hrest

/-- Everything that is held is released, in some order. -/
theorem Settles.releaseAll {rs : List R} (h : Settles log (rs : Multiset R)) :
    Settles (log ++ rs.map .released) 0 := by
  induction rs generalizing log with
  | nil => rwa [List.map_nil, List.append_nil]
  | cons r rs ih =>
      rw [← Multiset.cons_coe] at h
      have hrest := ih h.release
      rwa [List.append_assoc] at hrest

/-- **The balance of a resource**: it has been acquired as often as it was released, and as it is
held. -/
theorem Settles.count_eq (h : Settles log held) (r : R) :
    log.count (.acquired r) = log.count (.released r) + held.count r := by
  induction log using List.reverseRecOn generalizing held with
  | nil =>
      cases h
      rfl
  | append_singleton log e ih =>
      obtain ⟨before, hlog, he⟩ := runAll_concat_eq_some.mp h
      have hbalance := ih hlog
      rw [List.count_append, List.count_append]
      cases e with
      | acquired r' =>
          cases he
          by_cases hr : r' = r
          · subst hr
            simp
            omega
          · simp [hr, Ne.symm hr, hbalance]
      | released r' =>
          rw [account] at he
          split at he
          · rename_i hmem
            cases he
            by_cases hr : r' = r
            · subst hr
              have hpos := Multiset.count_pos.mpr hmem
              simp
              omega
            · simp [hr, Ne.symm hr, hbalance]
          · cases he

/-- A log with a release of something that has never been acquired does not settle. -/
theorem not_settles (hreleased : .released r ∈ log) (hacquired : .acquired r ∉ log) :
    ¬ Settles log held := by
  intro h
  have hbalance := h.count_eq r
  have hpos := List.count_pos_iff.mpr hreleased
  rw [List.count_eq_zero_of_not_mem hacquired] at hbalance
  omega

/-- **A log settles under other names.** -/
theorem Settles.map (h : Settles log held) (f : R → S) :
    Settles (log.map (LedgerEvent.map f)) (held.map f) := by
  induction log using List.reverseRecOn generalizing held with
  | nil =>
      cases h
      rfl
  | append_singleton log e ih =>
      obtain ⟨before, hlog, he⟩ := runAll_concat_eq_some.mp h
      have hmapped := ih hlog
      rw [List.map_append, List.map_singleton]
      cases e with
      | acquired r =>
          cases he
          rw [Multiset.map_cons]
          exact hmapped.acquire (f r)
      | released r =>
          rw [account] at he
          split at he
          · rename_i hmem
            cases he
            rw [← Multiset.cons_erase hmem, Multiset.map_cons] at hmapped
            exact hmapped.release
          · cases he

/-! ### Limits -/

/-- The log settles, and what is held at any time is within the limit. -/
structure SettlesWithin (limit : Multiset R → Prop) (log : List (LedgerEvent R)) (held : Multiset R) :
    Prop where
  settles : Settles log held
  within {before : List (LedgerEvent R)} {heldThen : Multiset R} (hbefore : before <+: log)
    (hsettles : Settles before heldThen) : limit heldThen

namespace SettlesWithin

variable {limit : Multiset R → Prop} {e : LedgerEvent R} {held' : Multiset R}

theorem nil (hlimit : limit 0) : SettlesWithin limit [] (0 : Multiset R) where
  settles := settles_nil
  within hbefore hsettles := by
    rw [List.prefix_nil.mp hbefore] at hsettles
    cases hsettles
    exact hlimit

/-- The limit is to be checked for what is held last. -/
theorem concat (h : SettlesWithin limit log held) (hsettles : Settles (log ++ [e]) held')
    (hlimit : limit held') : SettlesWithin limit (log ++ [e]) held' where
  settles := hsettles
  within hbefore hthen := by
    rcases List.prefix_concat_iff.mp hbefore with rfl | hbefore
    · cases hsettles.symm.trans hthen
      exact hlimit
    · exact h.within hbefore hthen

theorem acquire (h : SettlesWithin limit log held) (hlimit : limit (r ::ₘ held)) :
    SettlesWithin limit (log ++ [.acquired r]) (r ::ₘ held) :=
  h.concat (h.settles.acquire r) hlimit

theorem release (h : SettlesWithin limit log (r ::ₘ held)) (hlimit : limit held) :
    SettlesWithin limit (log ++ [.released r]) held :=
  h.concat h.settles.release hlimit

end SettlesWithin

end Ledger
