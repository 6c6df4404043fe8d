import IpcPerformance.Library.FlatMemory
import IpcPerformance.Library.LittleEndian

/-! # Self-delimiting formats

A format is an encoder together with a decoder that consumes exactly one encoded value and returns
what follows it. Two laws relate them: an encoded value is decoded whatever follows it, and whatever
is decoded was encoded. The rest — truncated values are rejected, decoding depends on the encoding
alone — follows from the two, so a format built with the combinators below needs no proof of its own.

* `Format.ofWord` — fixed-width words; `Format.seq` — one value after another;
  `Format.lengthPrefixed` — a string behind its length; `Format.map` — a change of type.
* `decode_take` — a truncated encoding does not decode; `encode_prefix` — what decodes starts with
  the encoding of the result. -/

open LittleEndian

/-- A self-delimiting format for the values of `α` in `dom`, over the alphabet `β`. -/
structure Format (β α : Type*) where
  /-- The values the format can carry. -/
  dom : α → Prop
  /-- The encoding of a value. -/
  encode : α → List β
  /-- The first value of a string and what follows it. -/
  decode : List β → Option (α × List β)
  /-- An encoded value is decoded, whatever follows it. -/
  decode_encode_append {a : α} (h : dom a) (rest : List β) :
    decode (encode a ++ rest) = some (a, rest)
  /-- What is decoded was encoded. -/
  eq_append_of_decode {bs : List β} {a : α} {rest : List β} (h : decode bs = some (a, rest)) :
    dom a ∧ bs = encode a ++ rest

namespace Format

variable {β α γ : Type*}

/-! ## Consequences of the laws -/

/-- The first value of a string. -/
def value (f : Format β α) (bs : List β) : Option α := (f.decode bs).map Prod.fst

/-- An encoded value is read back, whatever follows it. -/
theorem value_encode_append (f : Format β α) {a : α} (h : f.dom a) (rest : List β) :
    f.value (f.encode a ++ rest) = some a := by
  rw [value, f.decode_encode_append h, Option.map_some]

/-- What is read lies in the domain, and the string starts with its encoding. -/
theorem encode_prefix (f : Format β α) {bs : List β} {a : α} (h : f.value bs = some a) :
    f.dom a ∧ f.encode a <+: bs := by
  obtain ⟨⟨a', rest⟩, hdecode, rfl⟩ := Option.map_eq_some_iff.mp h
  obtain ⟨hdom, rfl⟩ := f.eq_append_of_decode hdecode
  exact ⟨hdom, List.prefix_append _ _⟩

/-- A truncated encoding does not decode. -/
theorem decode_take (f : Format β α) {a : α} (h : f.dom a) {t : ℕ}
    (ht : t < (f.encode a).length) : f.decode ((f.encode a).take t) = none := by
  by_contra hsome
  obtain ⟨⟨a', rest⟩, hdecode⟩ := Option.ne_none_iff_exists'.mp hsome
  obtain ⟨hdom, htake⟩ := f.eq_append_of_decode hdecode
  -- putting the cut-off bytes back decodes to both `a` and `a'`, so nothing was cut off
  have hwhole : f.encode a = f.encode a' ++ (rest ++ (f.encode a).drop t) := by
    rw [← List.append_assoc, ← htake, List.take_append_drop]
  have hall := f.decode_encode_append h []
  rw [List.append_nil, hwhole, f.decode_encode_append hdom] at hall
  have hrest := congrArg List.length (Prod.mk.inj (Option.some.inj hall)).2
  simp only [List.length_append, List.length_drop, List.length_nil] at hrest
  omega

theorem value_take (f : Format β α) {a : α} (h : f.dom a) {t : ℕ}
    (ht : t < (f.encode a).length) : f.value ((f.encode a).take t) = none := by
  rw [value, f.decode_take h ht, Option.map_none]

/-! ## Words -/

/-- Words of `w` bytes, little-endian. -/
def ofWord (w : ℕ) (toNat : α → ℕ) (ofNat : ℕ → α)
    (ofNat_toNat : ∀ x, ofNat (ofBytes (toBytes w (toNat x))) = x)
    (toNat_ofNat : ∀ bs : List UInt8, bs.length = w →
      toBytes w (toNat (ofNat (ofBytes bs))) = bs) : Format UInt8 α where
  dom _ := True
  encode x := toBytes w (toNat x)
  decode bs := if bs.length < w then none else some (ofNat (ofBytes (bs.take w)), bs.drop w)
  decode_encode_append {a} _ rest := by
    rw [if_neg (by simp), List.take_left' (length_toBytes _ _), List.drop_left' (length_toBytes _ _),
      ofNat_toNat]
  eq_append_of_decode {bs a rest} h := by
    split at h
    · cases h
    · rename_i hlen
      obtain ⟨rfl, rfl⟩ := Prod.mk.inj (Option.some.inj h)
      rw [toNat_ofNat _ (by simp; omega), List.take_append_drop]
      exact ⟨trivial, rfl⟩

/-- Decoding a word from memory. -/
theorem decode_ofWord_read {w : ℕ} {toNat : α → ℕ} {ofNat : ℕ → α} {h₁ h₂}
    (mem : Memory UInt8) (a n : ℕ) :
    (ofWord w toNat ofNat h₁ h₂).decode (mem.read a n) =
      if n < w then none else some (ofNat (ofBytes (mem.read a w)), mem.read (a + w) (n - w)) := by
  simp only [ofWord, Memory.length_read]
  split
  · rfl
  · rename_i h
    rw [Memory.take_read _ _ (by omega), Memory.drop_read _ _ (by omega)]

/-- 32-bit words. -/
def uint32 : Format UInt8 UInt32 :=
  ofWord 4 UInt32.toNat UInt32.ofNat uint32_ofBytes_toBytes fun _ => toBytes_uint32

/-- 64-bit words. -/
def uint64 : Format UInt8 UInt64 :=
  ofWord 8 UInt64.toNat UInt64.ofNat uint64_ofBytes_toBytes fun _ => toBytes_uint64

/-! ## Combinators -/

/-- One value after another. -/
def seq (f : Format β α) (g : Format β γ) : Format β (α × γ) where
  dom p := f.dom p.1 ∧ g.dom p.2
  encode p := f.encode p.1 ++ g.encode p.2
  decode bs := (f.decode bs).bind fun p => (g.decode p.2).map fun q => ((p.1, q.1), q.2)
  decode_encode_append h rest := by
    rw [List.append_assoc, f.decode_encode_append h.1, Option.bind_some,
      g.decode_encode_append h.2, Option.map_some]
  eq_append_of_decode h := by
    obtain ⟨p, hf, h⟩ := Option.bind_eq_some_iff.mp h
    obtain ⟨q, hg, h⟩ := Option.map_eq_some_iff.mp h
    obtain ⟨rfl, rfl⟩ := Prod.mk.inj h
    obtain ⟨hdom, rfl⟩ := f.eq_append_of_decode hf
    obtain ⟨hdom', hrest⟩ := g.eq_append_of_decode hg
    exact ⟨⟨hdom, hdom'⟩, by rw [hrest, List.append_assoc]⟩

/-- A string behind its length, which the word has to be able to hold. -/
def lengthPrefixed : Format UInt8 (List UInt8) where
  dom s := s.length < 2 ^ 32
  encode s := toBytes 4 s.length ++ s
  decode bs := (uint32.decode bs).bind fun p =>
    if p.2.length < p.1.toNat then none else some (p.2.take p.1.toNat, p.2.drop p.1.toNat)
  decode_encode_append {s} h rest := by
    have hlen : (UInt32.ofNat s.length).toNat = s.length := UInt32.toNat_ofNat_of_lt h
    have hword := uint32.decode_encode_append (a := .ofNat s.length) trivial (s ++ rest)
    rw [show uint32.encode (.ofNat s.length) = toBytes 4 s.length by
      rw [← hlen]; simp [uint32, ofWord]] at hword
    rw [List.append_assoc, hword, Option.bind_some]
    simp only [hlen]
    rw [if_neg (by simp), List.take_left, List.drop_left]
  eq_append_of_decode {bs s rest} h := by
    obtain ⟨⟨n, body⟩, hword, hbody⟩ := Option.bind_eq_some_iff.mp h
    obtain ⟨-, rfl⟩ := uint32.eq_append_of_decode hword
    split at hbody
    · cases hbody
    · rename_i hlen
      obtain ⟨rfl, rfl⟩ := Prod.mk.inj (Option.some.inj hbody)
      have htake : (body.take n.toNat).length = n.toNat := by
        simp only at hlen
        simp; omega
      simp only [htake, List.append_assoc, List.take_append_drop]
      exact ⟨n.toNat_lt, rfl⟩

/-- Decoding a length-prefixed string from memory. -/
theorem decode_lengthPrefixed_read (mem : Memory UInt8) (a n : ℕ) :
    lengthPrefixed.decode (mem.read a n) =
      let length := UInt32.ofNat (ofBytes (mem.read a 4))
      if n < 4 + length.toNat then none
      else some (mem.read (a + 4) length.toNat,
        mem.read (a + 4 + length.toNat) (n - 4 - length.toNat)) := by
  simp only [lengthPrefixed, uint32, decode_ofWord_read]
  by_cases h : n < 4
  · rw [if_pos h, if_pos (by omega), Option.bind_none]
  · rw [if_neg h, Option.bind_some, Memory.length_read]
    simp only
    split
    · rw [if_pos (by omega)]
    · rw [if_neg (by omega), Memory.take_read _ _ (by omega), Memory.drop_read _ _ (by omega)]

/-- The same format at another type. -/
def map (f : Format β α) (out : α → γ) (inv : γ → α) (inv_out : ∀ a, f.dom a → inv (out a) = a)
    (out_inv : ∀ c, out (inv c) = c) : Format β γ where
  dom c := f.dom (inv c)
  encode c := f.encode (inv c)
  decode bs := (f.decode bs).map fun p => (out p.1, p.2)
  decode_encode_append h rest := by
    rw [f.decode_encode_append h, Option.map_some, out_inv]
  eq_append_of_decode h := by
    obtain ⟨p, hf, h⟩ := Option.map_eq_some_iff.mp h
    obtain ⟨rfl, rfl⟩ := Prod.mk.inj h
    obtain ⟨hdom, rfl⟩ := f.eq_append_of_decode hf
    rw [inv_out _ hdom]
    exact ⟨hdom, rfl⟩

end Format
