import IpcPerformance.Library.Format
import IpcPerformance.Library.Numerals

/-! # Textual formats

Self-delimiting formats as texts have them: a piece ends where a delimiter stands or after a fixed number
of characters, a first character tells which of two formats follows, and values are written in one of the
ways they could be read. A text is a sequence of values that are written one behind the other.

* `Format.literal`, `Format.delimited`, `Format.fixed` — the pieces.
* `Format.via` — the values that are written as certain pieces; `Format.alt` — alternatives.
* `Format.read` — whole texts; `Format.read_flatMap` — a text is read as what it was written from. -/

namespace Format

variable {β α γ : Type*}

/-! ## Pieces -/

/-- A fixed piece of text. -/
def literal [DecidableEq β] (text : List β) : Format β Unit where
  dom _ := True
  encode _ := text
  decode bs := if bs.take text.length = text then some ((), bs.drop text.length) else none
  decode_encode_append _ rest := by rw [if_pos List.take_left, List.drop_left]
  eq_append_of_decode {bs a rest} h := by
    split at h
    · rename_i htake
      obtain ⟨-, rfl⟩ := Prod.mk.inj (Option.some.inj h)
      refine ⟨trivial, ?_⟩
      calc bs = bs.take text.length ++ bs.drop text.length := (List.take_append_drop _ _).symm
        _ = text ++ bs.drop text.length := by rw [htake]
    · cases h

/-- What is in front of the first delimiter, and what is behind it. -/
def upTo [DecidableEq β] (d : β) : List β → Option (List β × List β)
  | [] => none
  | b :: bs => if b = d then some ([], bs) else (upTo d bs).map fun p => (b :: p.1, p.2)

theorem upTo_append [DecidableEq β] {d : β} {s : List β} (h : d ∉ s) (rest : List β) :
    upTo d (s ++ d :: rest) = some (s, rest) := by
  induction s with
  | nil => exact if_pos rfl
  | cons b s ih =>
      rw [List.mem_cons, not_or] at h
      rw [List.cons_append, upTo, if_neg (Ne.symm h.1), ih h.2, Option.map_some]

theorem eq_append_of_upTo [DecidableEq β] {d : β} {bs s rest : List β}
    (h : upTo d bs = some (s, rest)) : d ∉ s ∧ bs = s ++ d :: rest := by
  induction bs generalizing s with
  | nil => cases h
  | cons b bs ih =>
      rw [upTo] at h
      split at h
      · rename_i hb
        obtain ⟨rfl, rfl⟩ := Prod.mk.inj (Option.some.inj h)
        exact ⟨List.not_mem_nil, by rw [hb, List.nil_append]⟩
      · rename_i hb
        obtain ⟨⟨s', rest'⟩, hrest, h⟩ := Option.map_eq_some_iff.mp h
        obtain ⟨rfl, rfl⟩ := Prod.mk.inj h
        obtain ⟨hmem, rfl⟩ := ih hrest
        exact ⟨List.not_mem_cons_of_ne_of_not_mem (Ne.symm hb) hmem, rfl⟩

/-- A string up to a delimiter. -/
def delimited [DecidableEq β] (d : β) : Format β (List β) where
  dom s := d ∉ s
  encode s := s ++ [d]
  decode := upTo d
  decode_encode_append h rest := by
    rw [List.append_assoc]
    exact upTo_append h rest
  eq_append_of_decode h := by
    rw [List.append_assoc]
    exact eq_append_of_upTo h

/-- A string of `n` characters. -/
def fixed (n : ℕ) : Format β (List β) where
  dom s := s.length = n
  encode s := s
  decode bs := if bs.length < n then none else some (bs.take n, bs.drop n)
  decode_encode_append {s} h rest := by
    rw [if_neg (by rw [List.length_append]; omega), List.take_left' h, List.drop_left' h]
  eq_append_of_decode {bs s rest} h := by
    split at h
    · cases h
    · rename_i hlen
      obtain ⟨rfl, rfl⟩ := Prod.mk.inj (Option.some.inj h)
      exact ⟨by rw [List.length_take]; omega, (List.take_append_drop _ _).symm⟩

/-! ## Combinators -/

/-- Values that are written as values of another format. What could be read as a value, but is not how it
is written, is rejected. -/
def via [DecidableEq α] (f : Format β α) (write : γ → α) (read : α → γ)
    (read_write : ∀ c, read (write c) = c) : Format β γ where
  dom c := f.dom (write c)
  encode c := f.encode (write c)
  decode bs := (f.decode bs).bind fun p =>
    if write (read p.1) = p.1 then some (read p.1, p.2) else none
  decode_encode_append {c} h rest := by
    rw [f.decode_encode_append h, Option.bind_some, read_write, if_pos rfl]
  eq_append_of_decode {bs c rest} h := by
    obtain ⟨⟨a, rest'⟩, hf, h⟩ := Option.bind_eq_some_iff.mp h
    split at h
    · rename_i hwrite
      obtain ⟨rfl, rfl⟩ := Prod.mk.inj (Option.some.inj h)
      rw [hwrite]
      exact f.eq_append_of_decode hf
    · cases h

/-- One value behind a fixed piece of text. -/
def behind [DecidableEq β] (f : Format β α) (text : List β) : Format β α :=
  ((literal text).seq f).map Prod.snd (Prod.mk ()) (fun _ _ => rfl) fun _ => rfl

/-- Two alternatives, told apart by their first character. -/
def alt (first : β → Bool) (f : Format β α) (g : Format β γ)
    (hf : ∀ a, f.dom a → (f.encode a).head?.map first = some true)
    (hg : ∀ c, g.dom c → (g.encode c).head?.map first = some false) : Format β (α ⊕ γ) where
  dom := Sum.elim f.dom g.dom
  encode := Sum.elim f.encode g.encode
  decode bs :=
    if bs.head?.map first = some true then (f.decode bs).map fun p => (.inl p.1, p.2)
    else (g.decode bs).map fun p => (.inr p.1, p.2)
  decode_encode_append {p} h rest := by
    have hhead {bs : List β} {b : Bool} (hb : bs.head?.map first = some b) :
        (bs ++ rest).head?.map first = some b := by
      cases bs with
      | nil => cases hb
      | cons _ _ => exact hb
    cases p with
    | inl a =>
        exact (if_pos (hhead (hf a h))).trans (by rw [Sum.elim_inl, f.decode_encode_append h]; rfl)
    | inr c =>
        have hfirst : ¬ ((g.encode c ++ rest).head?.map first = some true) := by
          rw [hhead (hg c h)]
          decide
        exact (if_neg hfirst).trans (by rw [Sum.elim_inr, g.decode_encode_append h]; rfl)
  eq_append_of_decode {bs p rest} h := by
    split at h
    · obtain ⟨q, hq, h⟩ := Option.map_eq_some_iff.mp h
      obtain ⟨rfl, rfl⟩ := Prod.mk.inj h
      exact f.eq_append_of_decode hq
    · obtain ⟨q, hq, h⟩ := Option.map_eq_some_iff.mp h
      obtain ⟨rfl, rfl⟩ := Prod.mk.inj h
      exact g.eq_append_of_decode hq

/-! ## Numerals -/

/-- Decimal numerals up to a delimiter. -/
def number (d : Char) : Format Char ℤ :=
  (delimited d).via Numeral.decimal Numeral.ofDecimal Numeral.ofDecimal_decimal

/-- Hexadecimal numerals of `w` digits. -/
def hexNumber (w : ℕ) : Format Char ℕ :=
  (fixed w).via (Numeral.hexDigits w) (Numeral.value 16) (Numeral.value_hexDigits w)

/-! ## Whole texts -/

/-- The values of a text, at most `fuel` of them. -/
def readUpTo (f : Format β α) : ℕ → List β → Option (List α)
  | _, [] => some []
  | 0, _ :: _ => none
  | fuel + 1, b :: bs => (f.decode (b :: bs)).bind fun p => (f.readUpTo fuel p.2).map (p.1 :: ·)

/-- The values a text consists of. -/
def read (f : Format β α) (text : List β) : Option (List α) := f.readUpTo text.length text

/-- Enough fuel for all characters is enough for all values. -/
theorem readUpTo_flatMap (f : Format β α) (hne : ∀ a, f.dom a → f.encode a ≠ []) {as : List α}
    (h : ∀ a ∈ as, f.dom a) {fuel : ℕ} (hfuel : (as.flatMap f.encode).length ≤ fuel) :
    f.readUpTo fuel (as.flatMap f.encode) = some as := by
  induction as generalizing fuel with
  | nil => cases fuel <;> rfl
  | cons a as ih =>
      rw [List.forall_mem_cons] at h
      rw [List.flatMap_cons] at hfuel ⊢
      have hdecode := f.decode_encode_append h.1 (as.flatMap f.encode)
      rw [List.length_append] at hfuel
      have hpos := List.length_pos_iff.mpr (hne a h.1)
      obtain ⟨b, bs, htext⟩ := List.exists_cons_of_ne_nil
        (List.append_ne_nil_of_left_ne_nil (hne a h.1) (as.flatMap f.encode))
      obtain ⟨fuel, rfl⟩ := Nat.exists_eq_succ_of_ne_zero (show fuel ≠ 0 by omega)
      rw [htext] at hdecode ⊢
      rw [readUpTo, hdecode, Option.bind_some, ih h.2 (by omega), Option.map_some]

/-- **Whole texts**: what is written value by value is read value by value. -/
theorem read_flatMap (f : Format β α) (hne : ∀ a, f.dom a → f.encode a ≠ []) {as : List α}
    (h : ∀ a ∈ as, f.dom a) : f.read (as.flatMap f.encode) = some as :=
  f.readUpTo_flatMap hne h le_rfl

end Format
