import IpcPerformance.Benchmark.Deadlines
import IpcPerformance.Handler.DBus
import IpcPerformance.Library.Fields
import IpcPerformance.Library.Numerals

/-! # Traces

The parser of `run_real_world` in `src/main.cpp`. A trace is a file with one message a line; a line is
split at its spaces, and the fields from the sixth on are glued together again.

* `parseLine` — the parser, with every access that may be outside the fields and every conversion that may
  throw.
* `parseTrace_formatTrace` — traces are parsed into what they have been written from. -/

namespace IpcPerformance

/-! ## Bytes and characters -/

/-- `' '`. -/
def space : UInt8 := 32

/-- `'\n'`. -/
def newline : UInt8 := 10

/-- `'\r'`. -/
def carriageReturn : UInt8 := 13

/-- The characters of a string. -/
def asChars (bytes : List UInt8) : List Char := bytes.map Char.ofUInt8

/-- ASCII characters as a string. -/
def asBytes (text : List Char) : List UInt8 := text.map Char.toUInt8

/-! ## Conversion of numbers -/

/-- The digits a number starts with. With the base 16, `0x` is skipped if there are digits behind it. -/
def leadingDigits (base : ℕ) (s : List Char) : List Char :=
  let digits (s : List Char) := s.takeWhile fun c => Numeral.digit c < base
  match s with
  | '0' :: x :: rest =>
      if base = 16 ∧ (x = 'x' ∨ x = 'X') ∧ digits rest ≠ [] then digits rest else digits s
  | _ => digits s

/-- What the conversions of the standard library read: white space is skipped, a sign may stand in front
of the digits, and the rest is ignored. Nothing without a digit. -/
def scanNumber (base : ℕ) (s : List Char) : Option (Bool × ℕ) :=
  let s := s.dropWhile isSpace
  let (negative, s) := match s with
    | '-' :: s => (true, s)
    | '+' :: s => (false, s)
    | s => (false, s)
  let digits := leadingDigits base s
  if digits = [] then none else some (negative, Numeral.value base digits)

/-- `std::stoll`. It throws when there is no number, or one that does not fit. -/
def stoll (s : List Char) : Option Int64 :=
  match scanNumber 10 s with
  | none => none
  | some (negative, n) =>
      let n : ℤ := if negative then -n else n
      if Fits64 n then some (Int64.ofInt n) else none

/-- `std::stoull` with the base 16. -/
def stoullHex (s : List Char) : Option UInt64 :=
  match scanNumber 16 s with
  | none => none
  | some (negative, n) =>
      if 2 ^ 64 ≤ n then none
      -- a negated number wraps
      else some (UInt64.ofNat (if negative then sizeT (2 ^ 64 - n) else n))

/-! ## The parser -/

/-- What a conversion gives, or its exception. -/
def orThrow {α : Type} : Option α → Except Fault α
  | none => .error .uncaught
  | some a => .ok a

/-- `elems[i]`. -/
def elemAt (elems : List (List UInt8)) (i : ℕ) : Except Fault (List UInt8) :=
  match elems[i]? with
  | none => .error .outOfBounds
  | some item => .ok item

/-- `erase(pos, count)` of a string: it throws when the position is outside. -/
def erase (s : List UInt8) (pos count : ℕ) : Except Fault (List UInt8) :=
  if s.length < pos then .error .uncaught else .ok (s.take pos ++ s.drop (pos + count))

/-- `size() - 1` of a string. -/
def lastIndex (s : List UInt8) : ℕ := if s = [] then 2 ^ 64 - 1 else s.length - 1

/-- The name: the sixth field, and the others with a space in front of each. -/
def glue (first : List UInt8) (rest : List (List UInt8)) : List UInt8 :=
  rest.foldl (fun name p => name ++ space :: p) first

/-- One round of the loop of `run_real_world`: the data point of a line. -/
def parseLine (str : List UInt8) : Except Fault DataPoint := do
  let elems := fields space str
  let time ← elemAt elems 2
  -- the time is behind an `@`
  let time ← erase time 0 1
  let time ← orThrow (stoll (asChars time))
  let address ← elemAt elems 3
  let address ← orThrow (stoullHex (asChars address))
  let length ← elemAt elems 4
  -- the length is in front of a colon
  let length ← erase length (lastIndex length) length.length
  let length ← orThrow (stoul (asChars length))
  let first ← elemAt elems 5
  let name := (glue first (elems.drop 6)).filter (· ≠ carriageReturn)
  return ⟨time, ⟨address, UInt32.ofNat length, .ofList name⟩⟩

/-- The rounds of the loop for some lines. -/
def parseLines : List (List UInt8) → Except Fault (List DataPoint)
  | [] => return []
  | str :: rest => do
      let point ← parseLine str
      let data ← parseLines rest
      return point :: data

/-- The whole loop: the data points of a file. -/
def parseTrace (file : List UInt8) : Except Fault (List DataPoint) := parseLines (fields newline file)

/-! ## Numbers are read back -/

/-- A byte is the character it stands for. -/
theorem ofUInt8_toUInt8 {c : Char} (h : c.toNat < 256) : Char.ofUInt8 c.toUInt8 = c := by
  apply Char.ext
  apply UInt32.toNat_inj.mp
  change c.val.toNat % 256 = c.val.toNat
  exact Nat.mod_eq_of_lt h

theorem asChars_asBytes {text : List Char} (h : ∀ c ∈ text, c.toNat < 256) :
    asChars (asBytes text) = text := by
  have hback : ∀ c ∈ text, (Char.ofUInt8 ∘ Char.toUInt8) c = id c := fun c hc =>
    ofUInt8_toUInt8 (h c hc)
  rw [asChars, asBytes, List.map_map, List.map_congr_left hback, List.map_id]

section Digits

variable {base n : ℕ} {ds : List Char} (h : Numeral.Spells base n ds)

include h

/-- All digits are read. -/
theorem takeWhile_of_spells : ds.takeWhile (fun c => Numeral.digit c < base) = ds :=
  List.takeWhile_eq_self_iff.mpr fun c hc => decide_eq_true (h.digits c hc)

variable (hbase : base ≤ 16)

include hbase

theorem digit_lt_of_spells {c : Char} (hc : c ∈ ds) : Numeral.digit c < 36 := by
  have hdigit := h.digits c hc
  omega

/-- A numeral is all digits, and has no prefix. -/
theorem leadingDigits_of_spells : leadingDigits base ds = ds := by
  have htake := takeWhile_of_spells h
  unfold leadingDigits
  dsimp only
  split
  · rename_i x rest
    split
    · rename_i hskip
      have hx := digit_lt_of_spells h hbase (c := x) (by simp)
      have hx' := h.digits x (by simp)
      rcases hskip.2.1 with rfl | rfl
      · exact absurd hx' (by rw [hskip.1]; decide)
      · exact absurd hx' (by rw [hskip.1]; decide)
    · exact htake
  · exact htake

end Digits

/-- A number that starts with a digit has no white space and no sign in front. -/
theorem scanNumber_of_digit (base : ℕ) {c : Char} (hc : Numeral.digit c < 36) (rest : List Char) :
    scanNumber base (c :: rest) =
      if leadingDigits base (c :: rest) = [] then none
      else some (false, Numeral.value base (leadingDigits base (c :: rest))) := by
  have hascii := Numeral.toNat_of_digit hc
  -- white space and signs come before the digits among the ASCII characters
  have hspace : isSpace c = false := by
    have hne : c ≠ ' ' := by
      rintro rfl
      exact absurd hascii.1 (by decide)
    rw [isSpace, decide_eq_false hne, Bool.false_or, Bool.and_eq_false_iff, decide_eq_false_iff_not,
      decide_eq_false_iff_not]
    omega
  unfold scanNumber
  dsimp only
  rw [List.dropWhile_cons_of_neg (by rw [hspace]; exact Bool.false_ne_true)]
  split
  · rename_i heq
    cases heq
    exact absurd hascii.1 (by decide)
  · rename_i heq
    cases heq
    exact absurd hascii.1 (by decide)
  · rfl

/-- **A numeral is read back.** -/
theorem scanNumber_of_spells {base n : ℕ} {ds : List Char} (h : Numeral.Spells base n ds)
    (hbase : base ≤ 16) : scanNumber base ds = some (false, n) := by
  have hleading := leadingDigits_of_spells h hbase
  obtain ⟨c, rest, rfl⟩ := List.exists_cons_of_ne_nil h.ne_nil
  rw [scanNumber_of_digit base (digit_lt_of_spells h hbase List.mem_cons_self), hleading,
    if_neg h.ne_nil, h.value_eq]

/-- The prefix is skipped. -/
theorem leadingDigits_hex {n : ℕ} {ds : List Char} (h : Numeral.Spells 16 n ds) {x : Char}
    (hx : x = 'x' ∨ x = 'X') : leadingDigits 16 ('0' :: x :: ds) = ds := by
  have htake := takeWhile_of_spells h
  simp only [leadingDigits, htake]
  exact if_pos ⟨trivial, hx, h.ne_nil⟩

/-- A hexadecimal numeral with its prefix is read back. -/
theorem scanNumber_hex {n : ℕ} {ds : List Char} (h : Numeral.Spells 16 n ds) :
    scanNumber 16 ('0' :: 'x' :: ds) = some (false, n) := by
  rw [scanNumber_of_digit 16 (by decide), leadingDigits_hex h (.inl rfl), if_neg h.ne_nil, h.value_eq]

/-- `std::stoul` reads like the others. -/
theorem stoul_eq (s : List Char) :
    stoul s =
      match scanNumber 10 s with
      | none => none
      | some (negative, n) =>
          if 2 ^ 64 ≤ n then none else some (if negative then sizeT (2 ^ 64 - n) else n) := by
  have hleading (s : List Char) : leadingDigits 10 s = s.takeWhile Char.isDigit := by
    have hdigits : (fun c => decide (Numeral.digit c < 10)) = Char.isDigit := by
      funext c
      rw [Bool.eq_iff_iff, decide_eq_true_iff, Numeral.isDigit_iff]
    unfold leadingDigits
    dsimp only
    rw [hdigits]
    split
    · exact if_neg fun hc => absurd hc.1 (by decide)
    · rfl
  have hvalue (s : List Char) :
      Numeral.value 10 (s.takeWhile Char.isDigit) = decimalValue (s.takeWhile Char.isDigit) := by
    refine List.foldl_ext _ _ 0 fun n c hc => ?_
    rw [Numeral.digit_of_isDigit (List.mem_takeWhile_imp hc)]
  -- behind the sign, the same digits are looked at
  have hread (negative : Bool) (digits : List Char) :
      (if digits = [] then none
        else if 2 ^ 64 ≤ decimalValue digits then none
        else some (if negative then sizeT (2 ^ 64 - decimalValue digits) else decimalValue digits)) =
      match (if digits = [] then none else some (negative, decimalValue digits)) with
      | none => none
      | some (negative, n) =>
          if 2 ^ 64 ≤ n then none else some (if negative then sizeT (2 ^ 64 - n) else n) := by
    split <;> rfl
  unfold stoul scanNumber
  simp only [hleading, hvalue]
  exact hread _ _

/-! ## Lines are parsed -/

/-- The name is what has been split. -/
theorem glue_eq (first : List UInt8) (rest : List (List UInt8)) :
    glue first rest = List.intercalate [space] (first :: rest) := by
  -- the second field joins the first one, and the loop goes on
  induction rest generalizing first with
  | nil => exact (List.intercalate_singleton).symm
  | cons p rest ih =>
      have hglue : glue first (p :: rest) = glue (first ++ space :: p) rest := rfl
      rw [hglue, ih, List.intercalate_cons_cons]
      cases rest with
      | nil => simp only [List.intercalate_singleton, List.append_assoc, List.singleton_append]
      | cons next rest =>
          simp only [List.intercalate_cons_cons, List.append_assoc, List.cons_append, List.nil_append]

/-- The first character is erased. -/
theorem erase_first (s : List UInt8) : erase s 0 1 = .ok (s.drop 1) := rfl

/-- The last character is erased. -/
theorem erase_last {s : List UInt8} (hne : s ≠ []) : erase s (lastIndex s) s.length = .ok s.dropLast := by
  rw [lastIndex, if_neg hne, erase, if_neg (by omega), List.drop_of_length_le (by omega), List.append_nil,
    List.dropLast_eq_take]

/-- **A line with six fields or more** is parsed when its three numbers can be converted. -/
theorem parseLine_eq {str e0 e1 e2 e3 e4 e5 : List UInt8} {rest : List (List UInt8)} {time : Int64}
    {address : UInt64} {length : ℕ}
    (hfields : fields space str = e0 :: e1 :: e2 :: e3 :: e4 :: e5 :: rest)
    (htime : stoll (asChars (e2.drop 1)) = some time)
    (haddress : stoullHex (asChars e3) = some address) (hne : e4 ≠ [])
    (hlength : stoul (asChars e4.dropLast) = some length) :
    parseLine str = .ok ⟨time, ⟨address, UInt32.ofNat length,
      .ofList ((List.intercalate [space] (e5 :: rest)).filter (· ≠ carriageReturn))⟩⟩ := by
  rw [← glue_eq]
  simp only [parseLine, hfields, elemAt, List.getElem?_cons_zero, List.getElem?_cons_succ, bind,
    Except.bind, erase_first, htime, haddress, erase_last hne, hlength, orThrow]
  rfl

/-- All lines are parsed. -/
theorem parseLines_map {α : Type} (text : α → List UInt8) (point : α → DataPoint) {lines : List α}
    (h : ∀ l ∈ lines, parseLine (text l) = .ok (point l)) :
    parseLines (lines.map text) = .ok (lines.map point) := by
  induction lines with
  | nil => rfl
  | cons l lines ih =>
      rw [List.forall_mem_cons] at h
      rw [List.map_cons, parseLines, h.1, ih h.2]
      rfl

/-! ## Traces are read back -/

/-- A line of a trace. -/
structure TraceLine where
  /-- Time in nanoseconds since epoch. -/
  time : ℕ
  time_lt : time < 2 ^ 63
  /-- Address of the symbol. -/
  address : UInt64
  /-- The address in hexadecimal digits, of either case and with any number of zeros in front. -/
  hex : List Char
  hex_spells : Numeral.Spells 16 address.toNat hex
  /-- Length of the symbol address area. -/
  length : UInt32
  /-- Name of the symbol. -/
  name : ByteString
  name_ne : name.bytes ≠ []
  newline_not_mem : newline ∉ name.bytes
  carriageReturn_not_mem : carriageReturn ∉ name.bytes
  name_last : name.bytes.getLast? ≠ some space
  /-- Whether there is a carriage return at the end of the line. -/
  returns : Bool

namespace TraceLine

/-- The end of the line: the name, and perhaps a carriage return. -/
def ending (l : TraceLine) : List UInt8 :=
  l.name.bytes ++ if l.returns then [carriageReturn] else []

/-- The line: `fifo write: @<time> 0x<address> <length>: <name>`. -/
def text (l : TraceLine) : List UInt8 :=
  asBytes (['f', 'i', 'f', 'o', ' ', 'w', 'r', 'i', 't', 'e', ':', ' ', '@'] ++ Nat.toDigits 10 l.time ++
    [' ', '0', 'x'] ++ l.hex ++ [' '] ++ Nat.toDigits 10 l.length.toNat ++ [':', ' ']) ++ l.ending

/-- What the line says. -/
def dataPoint (l : TraceLine) : DataPoint := ⟨Int64.ofInt l.time, ⟨l.address, l.length, l.name⟩⟩

end TraceLine

/-- A file of lines, with or without a newline behind the last one. -/
def formatTrace (lines : List TraceLine) (finalNewline : Bool) : List UInt8 :=
  if finalNewline then lines.flatMap fun l => l.text ++ [newline]
  else List.intercalate [newline] (lines.map TraceLine.text)

/-- Digits are none of the characters the parser looks for. -/
theorem toUInt8_ne_of_digit {c : Char} (hc : Numeral.digit c < 36) {b : UInt8} (hb : b.toNat < 48) :
    c.toUInt8 ≠ b := by
  have hascii := Numeral.toNat_of_digit hc
  rintro rfl
  have hmod : c.toUInt8.toNat = c.toNat % 256 := rfl
  omega

theorem not_mem_asBytes {b : UInt8} {text : List Char} (h : ∀ c ∈ text, c.toUInt8 ≠ b) :
    b ∉ asBytes text := by
  intro hb
  obtain ⟨c, hc, hcb⟩ := List.mem_map.mp hb
  exact h c hc hcb

theorem not_mem_asBytes_of_spells {base n : ℕ} {ds : List Char} (h : Numeral.Spells base n ds)
    (hbase : base ≤ 16) {b : UInt8} (hb : b.toNat < 48) : b ∉ asBytes ds :=
  not_mem_asBytes fun _ hc => toUInt8_ne_of_digit (digit_lt_of_spells h hbase hc) hb

/-- The characters of a numeral come back. -/
theorem asChars_of_spells {base n : ℕ} {ds : List Char} (h : Numeral.Spells base n ds)
    (hbase : base ≤ 16) : asChars (asBytes ds) = ds := by
  refine asChars_asBytes fun c hc => ?_
  have hascii := Numeral.toNat_of_digit (digit_lt_of_spells h hbase hc)
  omega

/-- The numeral of a decimal number. -/
theorem spells_decimal (n : ℕ) : Numeral.Spells 10 n (Nat.toDigits 10 n) :=
  Numeral.spells_toDigits (by decide) (by decide) n

namespace TraceLine

variable (l : TraceLine)

/-- The pieces of a line, with the spaces between them. -/
theorem text_eq : l.text =
    asBytes ['f', 'i', 'f', 'o'] ++ space :: (asBytes ['w', 'r', 'i', 't', 'e', ':'] ++ space ::
      (asBytes ('@' :: Nat.toDigits 10 l.time) ++ space :: (asBytes ('0' :: 'x' :: l.hex) ++ space ::
        (asBytes (Nat.toDigits 10 l.length.toNat ++ [':']) ++ space :: l.ending)))) := by
  have hspace : Char.toUInt8 ' ' = space := rfl
  simp [text, asBytes, hspace]

/-- **The fields of a line.** -/
theorem fields_text : fields space l.text =
    asBytes ['f', 'i', 'f', 'o'] :: asBytes ['w', 'r', 'i', 't', 'e', ':'] ::
      asBytes ('@' :: Nat.toDigits 10 l.time) :: asBytes ('0' :: 'x' :: l.hex) ::
        asBytes (Nat.toDigits 10 l.length.toNat ++ [':']) :: fields space l.ending := by
  have hlt : space.toNat < 48 := by decide
  have htime : space ∉ asBytes ('@' :: Nat.toDigits 10 l.time) :=
    List.not_mem_cons_of_ne_of_not_mem (by decide)
      (not_mem_asBytes_of_spells (spells_decimal l.time) (by decide) hlt)
  have haddress : space ∉ asBytes ('0' :: 'x' :: l.hex) :=
    List.not_mem_cons_of_ne_of_not_mem (by decide) (List.not_mem_cons_of_ne_of_not_mem (by decide)
      (not_mem_asBytes_of_spells l.hex_spells (le_refl 16) hlt))
  have hlength : space ∉ asBytes (Nat.toDigits 10 l.length.toNat ++ [':']) := by
    rw [asBytes, List.map_append, List.mem_append, not_or]
    exact ⟨not_mem_asBytes_of_spells (spells_decimal l.length.toNat) (by decide) hlt, by decide⟩
  rw [text_eq, fields_append_cons (by decide), fields_append_cons (by decide), fields_append_cons htime,
    fields_append_cons haddress, fields_append_cons hlength]

/-- The time is converted. -/
theorem stoll_time : stoll (asChars (asBytes (Nat.toDigits 10 l.time))) = some (Int64.ofInt l.time) := by
  have hspells := spells_decimal l.time
  have hlt := l.time_lt
  have hfits : Fits64 (l.time : ℤ) := ⟨by omega, by omega⟩
  rw [asChars_of_spells hspells (by decide), stoll, scanNumber_of_spells hspells (by decide)]
  exact if_pos hfits

/-- The characters of the address come back. -/
theorem asChars_address : asChars (asBytes ('0' :: 'x' :: l.hex)) = '0' :: 'x' :: l.hex := by
  have hzero : asBytes ('0' :: 'x' :: l.hex) = asBytes ['0', 'x'] ++ asBytes l.hex := rfl
  rw [hzero, asChars, List.map_append]
  exact congrArg _ (asChars_of_spells l.hex_spells (le_refl 16))

/-- The address is converted. -/
theorem stoullHex_address : stoullHex (asChars (asBytes ('0' :: 'x' :: l.hex))) = some l.address := by
  rw [asChars_address, stoullHex, scanNumber_hex l.hex_spells]
  exact (if_neg (Nat.not_le.mpr l.address.toNat_lt)).trans (congrArg some UInt64.ofNat_toNat)

/-- The colon is cut off. -/
theorem dropLast_length : (asBytes (Nat.toDigits 10 l.length.toNat ++ [':'])).dropLast =
    asBytes (Nat.toDigits 10 l.length.toNat) := by
  rw [asBytes, List.map_append]
  exact List.dropLast_concat

/-- The length is converted. -/
theorem stoul_length : stoul (asChars (asBytes (Nat.toDigits 10 l.length.toNat))) =
    some l.length.toNat := by
  have hspells := spells_decimal l.length.toNat
  have hlt := l.length.toNat_lt
  rw [asChars_of_spells hspells (by decide), stoul_eq, scanNumber_of_spells hspells (by decide)]
  exact if_neg (by omega)

/-- The end of a line is split and glued together. -/
theorem intercalate_ending : List.intercalate [space] (fields space l.ending) = l.ending := by
  apply intercalate_fields
  -- with a carriage return the line does not end with a space, whatever the name is
  have hlast := l.name_last
  unfold ending
  cases l.returns with
  | false => rwa [if_neg Bool.false_ne_true, List.append_nil]
  | true =>
      rw [if_pos rfl, List.getLast?_concat]
      decide

/-- The carriage return is removed. -/
theorem filter_ending : l.ending.filter (· ≠ carriageReturn) = l.name.bytes := by
  have hname : l.name.bytes.filter (· ≠ carriageReturn) = l.name.bytes :=
    List.filter_eq_self.mpr fun b hb => decide_eq_true fun h => l.carriageReturn_not_mem (h ▸ hb)
  rw [ending, List.filter_append, hname]
  cases l.returns with
  | false => exact List.append_nil _
  | true => exact List.append_nil _

/-- There is a sixth field. -/
theorem exists_fields_ending : ∃ first rest, fields space l.ending = first :: rest := by
  have hne : l.ending ≠ [] := List.append_ne_nil_of_left_ne_nil l.name_ne _
  exact List.exists_cons_of_ne_nil fun hnil => hne (fields_eq_nil.mp hnil)

/-- **A line is parsed into what it says.** -/
theorem parseLine_text : parseLine l.text = .ok l.dataPoint := by
  have hfields := l.fields_text
  have hintercalate := l.intercalate_ending
  obtain ⟨first, rest, hending⟩ := l.exists_fields_ending
  rw [hending] at hfields hintercalate
  rw [parseLine_eq hfields l.stoll_time l.stoullHex_address (by simp [asBytes])
    (by rw [dropLast_length]; exact l.stoul_length), hintercalate, filter_ending, ByteString.ofList_bytes,
    UInt32.ofNat_toNat]
  rfl

/-- A line is one line. -/
theorem newline_not_mem_text : newline ∉ l.text := by
  have hlt : newline.toNat < 48 := by decide
  have htime := not_mem_asBytes_of_spells (spells_decimal l.time) (by decide) hlt
  have haddress := not_mem_asBytes_of_spells l.hex_spells (le_refl 16) hlt
  have hlength := not_mem_asBytes_of_spells (spells_decimal l.length.toNat) (by decide) hlt
  have hending : newline ∉ l.ending := by
    rw [ending, List.mem_append, not_or]
    refine ⟨l.newline_not_mem, ?_⟩
    cases l.returns <;> decide
  simp only [asBytes] at htime haddress hlength
  simp only [text, asBytes, List.map_append, List.mem_append, not_or]
  exact ⟨⟨⟨⟨⟨⟨⟨by decide, htime⟩, by decide⟩, haddress⟩, by decide⟩, hlength⟩, by decide⟩, hending⟩

theorem text_ne_nil : l.text ≠ [] := by
  rw [text_eq]
  exact List.cons_ne_nil _ _

end TraceLine

/-- The lines of a file. -/
theorem fields_formatTrace (lines : List TraceLine) (finalNewline : Bool) :
    fields newline (formatTrace lines finalNewline) = lines.map TraceLine.text := by
  have hnewline : ∀ text ∈ lines.map TraceLine.text, newline ∉ text :=
    List.forall_mem_map.mpr fun l _ => l.newline_not_mem_text
  cases finalNewline with
  | true =>
      have hflatMap : formatTrace lines true =
          (lines.map TraceLine.text).flatMap fun text => text ++ [newline] := by
        rw [List.flatMap_map]
        rfl
      rw [hflatMap, fields_flatMap hnewline]
  | false => exact fields_intercalate hnewline (List.forall_mem_map.mpr fun l _ => l.text_ne_nil)

/-- **The parser undoes the formatting**, of a line and of a file. -/
theorem parseTrace_formatTrace :
    (∀ l : TraceLine, parseLine l.text = .ok l.dataPoint) ∧
      ∀ (lines : List TraceLine) (finalNewline : Bool),
        parseTrace (formatTrace lines finalNewline) = .ok (lines.map TraceLine.dataPoint) := by
  refine ⟨TraceLine.parseLine_text, fun lines finalNewline => ?_⟩
  rw [parseTrace, fields_formatTrace]
  exact parseLines_map _ _ fun l _ => l.parseLine_text

/-- A line with a name of two words, two spaces between them, and a carriage return. -/
def spacedLine : TraceLine where
  time := 1700000000000000000
  time_lt := by decide
  address := 0x7F00A0
  hex := ['0', '0', '7', 'F', '0', '0', 'a', '0']
  hex_spells := ⟨by decide, by simp [Numeral.digit], rfl⟩
  length := 96
  name := ⟨asBytes ['v', 'o', 'i', 'd', ' ', ' ', 'r', 'u', 'n', '(', ')'], by decide⟩
  name_ne := by decide
  newline_not_mem := by decide
  carriageReturn_not_mem := by decide
  name_last := by decide
  returns := true

/-- A file of two such lines comes back, without a newline behind the last one. -/
theorem parseTrace_spacedLines :
    parseTrace (formatTrace [spacedLine, spacedLine] false) =
      .ok [spacedLine.dataPoint, spacedLine.dataPoint] :=
  parseTrace_formatTrace.2 [spacedLine, spacedLine] false

end IpcPerformance
