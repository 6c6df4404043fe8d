import Mathlib

/-! # Little-endian words

Fixed-width little-endian encodings of natural numbers as byte lists, and the round trips for the
machine words `UInt16`, `UInt32` and `UInt64` that a C++ program copies to and from memory with
`memcpy`. `toBytes w n` keeps the low `8 * w` bits of `n`, so both round trips are exact on words of
the matching width. -/

namespace LittleEndian

/-- The `w` little-endian bytes of `n`; bits above `8 * w` are dropped. -/
def toBytes : ℕ → ℕ → List UInt8
  | 0, _ => []
  | w + 1, n => UInt8.ofNat n :: toBytes w (n / 256)

/-- The number with the given little-endian bytes. -/
def ofBytes : List UInt8 → ℕ
  | [] => 0
  | b :: bs => b.toNat + 256 * ofBytes bs

@[simp] theorem length_toBytes (w n : ℕ) : (toBytes w n).length = w := by
  induction w generalizing n with
  | zero => rfl
  | succ w ih => simp [toBytes, ih]

/-- Decoding an encoding gives the number back, up to the width. -/
theorem ofBytes_toBytes (w n : ℕ) : ofBytes (toBytes w n) = n % 256 ^ w := by
  induction w generalizing n with
  | zero => simp [toBytes, ofBytes, Nat.mod_one]
  | succ w ih =>
      rw [toBytes, ofBytes, ih, UInt8.toNat_ofNat', show 2 ^ 8 = 256 from rfl, pow_succ',
        Nat.mod_mul]

/-- A decoded number fits the number of bytes it was read from. -/
theorem ofBytes_lt (bs : List UInt8) : ofBytes bs < 256 ^ bs.length := by
  induction bs with
  | nil => simp [ofBytes]
  | cons b bs ih =>
      have hb : b.toNat < 256 := b.toNat_lt
      rw [ofBytes, List.length_cons, pow_succ]
      omega

/-- Encoding a decoded number gives its bytes back. -/
theorem toBytes_ofBytes {w : ℕ} {bs : List UInt8} (h : bs.length = w) :
    toBytes w (ofBytes bs) = bs := by
  subst h
  induction bs with
  | nil => rfl
  | cons b bs ih =>
      have hb : b.toNat < 256 := b.toNat_lt
      have hdiv : (b.toNat + 256 * ofBytes bs) / 256 = ofBytes bs := by omega
      have hmod : UInt8.ofNat (b.toNat + 256 * ofBytes bs) = b := by
        apply UInt8.toNat_inj.mp
        rw [UInt8.toNat_ofNat']
        omega
      rw [List.length_cons, ofBytes, toBytes, hdiv, hmod, ih]

/-! ## Machine words -/

/-- A 16-bit word survives its two bytes. -/
@[simp] theorem uint16_ofBytes_toBytes (x : UInt16) :
    UInt16.ofNat (ofBytes (toBytes 2 x.toNat)) = x := by
  rw [ofBytes_toBytes, Nat.mod_eq_of_lt (by simpa using x.toNat_lt), UInt16.ofNat_toNat]

/-- A 32-bit word survives its four bytes. -/
@[simp] theorem uint32_ofBytes_toBytes (x : UInt32) :
    UInt32.ofNat (ofBytes (toBytes 4 x.toNat)) = x := by
  rw [ofBytes_toBytes, Nat.mod_eq_of_lt (by simpa using x.toNat_lt), UInt32.ofNat_toNat]

/-- A 64-bit word survives its eight bytes. -/
@[simp] theorem uint64_ofBytes_toBytes (x : UInt64) :
    UInt64.ofNat (ofBytes (toBytes 8 x.toNat)) = x := by
  rw [ofBytes_toBytes, Nat.mod_eq_of_lt (by simpa using x.toNat_lt), UInt64.ofNat_toNat]

/-- Two bytes survive being read as a 16-bit word. -/
theorem toBytes_uint16 {bs : List UInt8} (h : bs.length = 2) :
    toBytes 2 (UInt16.ofNat (ofBytes bs)).toNat = bs := by
  have hlt := ofBytes_lt bs
  rw [h] at hlt
  rw [UInt16.toNat_ofNat', Nat.mod_eq_of_lt (by simpa using hlt), toBytes_ofBytes h]

/-- Four bytes survive being read as a 32-bit word. -/
theorem toBytes_uint32 {bs : List UInt8} (h : bs.length = 4) :
    toBytes 4 (UInt32.ofNat (ofBytes bs)).toNat = bs := by
  have hlt := ofBytes_lt bs
  rw [h] at hlt
  rw [UInt32.toNat_ofNat', Nat.mod_eq_of_lt (by simpa using hlt), toBytes_ofBytes h]

/-- Eight bytes survive being read as a 64-bit word. -/
theorem toBytes_uint64 {bs : List UInt8} (h : bs.length = 8) :
    toBytes 8 (UInt64.ofNat (ofBytes bs)).toNat = bs := by
  have hlt := ofBytes_lt bs
  rw [h] at hlt
  rw [UInt64.toNat_ofNat', Nat.mod_eq_of_lt (by simpa using hlt), toBytes_ofBytes h]

end LittleEndian
