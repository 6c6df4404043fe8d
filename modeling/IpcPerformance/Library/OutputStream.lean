import IpcPerformance.Library.Numerals

/-! # Streams of formatted output

A stream keeps, besides what has been put out, how numbers are to be written: their base, and the width to
which the next piece is filled up, with which character. The width holds for one piece only, the others
until they are changed.

* `OutputStream.put`, `putNat`, `putInt` — the pieces.
* `OutputStream.Plain` — streams that write numbers in decimal and nothing wider than it is.
* `OutputStream.Prints` — a plain stream prints a text and stays plain; what is printed piece by piece. -/

/-- Formatted output. -/
structure OutputStream where
  /-- What has been put out. -/
  text : List Char
  /-- The base of numbers. -/
  base : ℕ
  /-- What is put in front of a piece that is too short. -/
  fill : Char
  /-- The least width of the next piece. -/
  width : ℕ

namespace OutputStream

/-- A stream as it is created. -/
def create : OutputStream := ⟨[], 10, ' ', 0⟩

/-- The next piece, right-justified. -/
def put (s : OutputStream) (piece : List Char) : OutputStream :=
  { s with text := s.text ++ piece.leftpad s.width s.fill, width := 0 }

/-- An unsigned number. -/
def putNat (s : OutputStream) (n : ℕ) : OutputStream := s.put (Nat.toDigits s.base n)

/-- A signed number of `bits` bits: only in decimal there is a sign. -/
def putInt (bits : ℕ) (s : OutputStream) (i : ℤ) : OutputStream :=
  s.put (if s.base = 10 then Numeral.decimal i else Nat.toDigits s.base (i % 2 ^ bits).toNat)

/-- `std::setfill`. -/
def setFill (s : OutputStream) (fill : Char) : OutputStream := { s with fill }

/-- `std::setw`. -/
def setWidth (s : OutputStream) (width : ℕ) : OutputStream := { s with width }

/-- `std::hex` and `std::dec`, and the restoring of the flags. -/
def setBase (s : OutputStream) (base : ℕ) : OutputStream := { s with base }

/-- `std::endl`: not a piece. -/
def endLine (s : OutputStream) : OutputStream := { s with text := s.text ++ ['\n'] }

/-! ## Plain streams -/

/-- Numbers are written in decimal, and nothing is wider than it is. -/
structure Plain (s : OutputStream) : Prop where
  base : s.base = 10
  width : s.width = 0

/-- The same stream with more text, and another fill character. -/
def extend (s : OutputStream) (text : List Char) (fill : Char) : OutputStream :=
  { s with text := s.text ++ text, fill }

theorem plain_create : Plain create := ⟨rfl, rfl⟩

theorem extend_extend (s : OutputStream) (text text' : List Char) (fill fill' : Char) :
    (s.extend text fill).extend text' fill' = s.extend (text ++ text') fill' := by
  simp [OutputStream.extend]

/-- The text has been printed, and the stream is as before, except for the fill character. -/
def Prints (s t : OutputStream) (text : List Char) : Prop := ∃ fill, t = s.extend text fill

namespace Prints

variable {s t u : OutputStream} {text text' : List Char}

theorem refl (s : OutputStream) : Prints s s [] := ⟨s.fill, by simp [extend]⟩

theorem trans (h : Prints s t text) (h' : Prints t u text') : Prints s u (text ++ text') := by
  obtain ⟨fill, rfl⟩ := h
  obtain ⟨fill', rfl⟩ := h'
  exact ⟨fill', extend_extend s text text' fill fill'⟩

theorem text_eq (h : Prints s t text) : t.text = s.text ++ text := by
  obtain ⟨fill, rfl⟩ := h
  rfl

/-- A plain stream stays plain. -/
theorem plain (h : Prints s t text) (hs : s.Plain) : t.Plain := by
  obtain ⟨fill, rfl⟩ := h
  exact ⟨hs.base, hs.width⟩

theorem of_put (hs : s.Plain) (piece : List Char) : Prints s (s.put piece) piece :=
  ⟨s.fill, by simp [OutputStream.put, extend, hs.width, List.leftpad]⟩

/-- One more piece. -/
theorem put (h : Prints s t text) (hs : s.Plain) (piece : List Char) :
    Prints s (t.put piece) (text ++ piece) :=
  h.trans (of_put (h.plain hs) piece)

/-- One more number. -/
theorem putInt (h : Prints s t text) (hs : s.Plain) (bits : ℕ) (i : ℤ) :
    Prints s (t.putInt bits i) (text ++ Numeral.decimal i) := by
  rw [OutputStream.putInt, if_pos (h.plain hs).base]
  exact h.put hs _

/-- The end of the line. -/
theorem endLine (h : Prints s t text) : Prints s t.endLine (text ++ ['\n']) :=
  h.trans ⟨t.fill, rfl⟩

end Prints

end OutputStream
