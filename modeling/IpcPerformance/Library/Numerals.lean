import Mathlib

/-! # Numerals

Numbers written with digits, up to base 36. The digits from ten on are letters of either case.

* `Numeral.Spells` — the digits spell the number; there may be zeros in front.
* `Numeral.spells_toDigits` — the digits `Nat.toDigits` gives do.
* `Numeral.decimal`, `Numeral.hexDigits` — how integers are written, and read again. -/

namespace Numeral

/-- The value of a digit; 36 for a character that is none. -/
def digit (c : Char) : ℕ :=
  if '0' ≤ c ∧ c ≤ '9' then c.toNat - '0'.toNat
  else if 'a' ≤ c ∧ c ≤ 'z' then c.toNat - 'a'.toNat + 10
  else if 'A' ≤ c ∧ c ≤ 'Z' then c.toNat - 'A'.toNat + 10
  else 36

/-- The number that is written with these digits. -/
def value (base : ℕ) (ds : List Char) : ℕ := ds.foldl (fun n c => base * n + digit c) 0

/-- The digits spell the number. -/
structure Spells (base n : ℕ) (ds : List Char) : Prop where
  ne_nil : ds ≠ []
  digits : ∀ c ∈ ds, digit c < base
  value_eq : value base ds = n

/-- Digits are letters and digits of the ASCII characters. -/
theorem toNat_of_digit {c : Char} (h : digit c < 36) : 48 ≤ c.toNat ∧ c.toNat ≤ 122 := by
  unfold digit at h
  split at h
  · rename_i hc
    exact ⟨hc.1, Nat.le_trans hc.2 (by decide)⟩
  · split at h
    · rename_i hc
      exact ⟨Nat.le_trans (by decide) hc.1, hc.2⟩
    · split at h
      · rename_i hc
        exact ⟨Nat.le_trans (by decide) hc.1, Nat.le_trans hc.2 (by decide)⟩
      · exact absurd h (lt_irrefl 36)

/-- A decimal digit. -/
theorem isDigit_iff (c : Char) : c.isDigit = true ↔ digit c < 10 := by
  have hdigit : c.isDigit = true ↔ '0' ≤ c ∧ c ≤ '9' := by
    rw [Char.isDigit, Bool.and_eq_true, decide_eq_true_iff, decide_eq_true_iff]
    exact Iff.rfl
  rw [hdigit, digit]
  split
  · rename_i hc
    refine iff_of_true hc ?_
    have hle : c.toNat ≤ 57 := hc.2
    change c.toNat - 48 < 10
    omega
  · rename_i hc
    refine iff_of_false hc ?_
    split
    · omega
    · split <;> omega

/-- Its value. -/
theorem digit_of_isDigit {c : Char} (h : c.isDigit = true) : digit c = c.toNat - '0'.toNat := by
  have hlt := (isDigit_iff c).mp h
  unfold digit at *
  split at hlt
  · rename_i hc
    exact if_pos hc
  · split at hlt
    · omega
    · split at hlt <;> omega

theorem value_concat (base : ℕ) (ds : List Char) (c : Char) :
    value base (ds ++ [c]) = base * value base ds + digit c := by
  rw [value, List.foldl_append]
  rfl

/-- One more digit. -/
theorem Spells.concat {base n : ℕ} {ds : List Char} (h : Spells base n ds) {c : Char}
    (hc : digit c < base) : Spells base (base * n + digit c) (ds ++ [c]) where
  ne_nil := List.append_ne_nil_of_right_ne_nil ds (List.cons_ne_nil c [])
  digits := List.forall_mem_append.mpr ⟨h.digits, List.forall_mem_singleton.mpr hc⟩
  value_eq := by rw [value_concat, h.value_eq]

/-- A single digit. -/
theorem spells_singleton {base : ℕ} {c : Char} (hc : digit c < base) : Spells base (digit c) [c] where
  ne_nil := List.cons_ne_nil c []
  digits := List.forall_mem_singleton.mpr hc
  value_eq := by rw [value, List.foldl_cons, List.foldl_nil, Nat.mul_zero, Nat.zero_add]

/-- The digits of `Nat.digitChar`. -/
theorem digit_digitChar {n : ℕ} (hn : n < 16) : digit n.digitChar = n := by
  have h : ∀ n < 16, digit n.digitChar = n := by decide
  exact h n hn

/-- **The digits of a number** spell it. -/
theorem spells_toDigits {base : ℕ} (hbase : 1 < base) (hle : base ≤ 16) (n : ℕ) :
    Spells base n (Nat.toDigits base n) := by
  induction n using Nat.strong_induction_on with
  | _ n ih =>
    by_cases hn : n < base
    · have hdigit := digit_digitChar (hn.trans_le hle)
      have hsingle := spells_singleton (c := n.digitChar) (hdigit.trans_lt hn)
      rwa [hdigit, ← Nat.toDigits_of_lt_base hn] at hsingle
    · -- the last digit behind those of the quotient
      have hpos : 0 < n := by omega
      have hmod := Nat.mod_lt n (show 0 < base by omega)
      have hdigit := digit_digitChar (hmod.trans_le hle)
      have hconcat := (ih (n / base) (Nat.div_lt_self hpos hbase)).concat
        (c := (n % base).digitChar) (hdigit.trans_lt hmod)
      rwa [hdigit, Nat.div_add_mod, ← Nat.toDigits_of_base_le hbase (not_lt.mp hn)] at hconcat

/-! ## Writing numbers -/

theorem value_toDigits {base : ℕ} (hbase : 1 < base) (hle : base ≤ 16) (n : ℕ) :
    value base (Nat.toDigits base n) = n :=
  (spells_toDigits hbase hle n).value_eq

/-- Zeros in front do not change the value. -/
theorem value_leftpad (base w : ℕ) (ds : List Char) :
    value base (ds.leftpad w '0') = value base ds := by
  have hzeros (n : ℕ) : value base (List.replicate n '0') = 0 := by
    induction n with
    | zero => rfl
    | succ n ih =>
        rw [List.replicate_succ', value_concat, ih, Nat.mul_zero, Nat.zero_add]
        rfl
  rw [List.leftpad, value, List.foldl_append]
  exact congrArg (fun n => ds.foldl (fun n c => base * n + digit c) n) (hzeros _)

/-- Hexadecimal digits, with zeros in front. -/
def hexDigits (w n : ℕ) : List Char := (Nat.toDigits 16 n).leftpad w '0'

theorem value_hexDigits (w n : ℕ) : value 16 (hexDigits w n) = n := by
  rw [hexDigits, value_leftpad, value_toDigits (by decide) (by decide)]

/-- There are `w` of them, if they are enough for the number. -/
theorem length_hexDigits {w n : ℕ} (hw : 0 < w) (hn : n < 16 ^ w) : (hexDigits w n).length = w := by
  rw [hexDigits, List.length_leftpad]
  exact max_eq_left ((Nat.length_toDigits_le_iff (by decide) hw).mpr hn)

/-- An integer in decimal. -/
def decimal : ℤ → List Char
  | .ofNat n => Nat.toDigits 10 n
  | .negSucc n => '-' :: Nat.toDigits 10 (n + 1)

theorem decimal_natCast (n : ℕ) : decimal n = Nat.toDigits 10 n := rfl

/-- The integer that is written in decimal. -/
def ofDecimal (ds : List Char) : ℤ :=
  if ds.head? = some '-' then -value 10 ds.tail else value 10 ds

/-- Only digits and a sign are in it. -/
theorem not_mem_decimal {c : Char} (hdigit : c.isDigit = false) (hsign : c ≠ '-') (i : ℤ) :
    c ∉ decimal i := by
  have hdigits (n : ℕ) : c ∉ Nat.toDigits 10 n := fun h => by
    rw [Nat.isDigit_of_mem_toDigits (by decide) (by decide) h] at hdigit
    cases hdigit
  cases i with
  | ofNat n => exact hdigits n
  | negSucc n => exact fun h => (List.mem_cons.mp h).elim hsign (hdigits (n + 1))

theorem ofDecimal_decimal (i : ℤ) : ofDecimal (decimal i) = i := by
  cases i with
  | ofNat n =>
      have hhead : (Nat.toDigits 10 n).head? ≠ some '-' := fun h =>
        absurd (Nat.isDigit_of_mem_toDigits (by decide) (by decide) (List.mem_of_mem_head? h))
          (by decide)
      rw [decimal, ofDecimal, if_neg hhead, value_toDigits (by decide) (by decide)]
      rfl
  | negSucc n =>
      rw [decimal, ofDecimal, if_pos (by rfl), List.tail_cons,
        value_toDigits (by decide) (by decide)]
      rfl

end Numeral
