import IpcPerformance.Benchmark.Trace
import IpcPerformance.Library.OutputStream
import IpcPerformance.Library.TextFormat

/-! # How headers and objects are printed

`operator<<` of `src/object/*.cpp`. They print numbers in hexadecimal where it suits them, and restore the
flags of the stream before they return; the fill character stays a zero. What they print can be read again:
`DataHeader.textFormat`, and with the end of the line `DataObject.lineFormat`, are formats for it. A symbol
may contain any characters, a quotation mark too, so only the end of the line tells where it ends. -/

namespace IpcPerformance

/-! ## `operator<<` -/

/-- `operator<<` of a header. -/
def DataHeader.print (outs : OutputStream) (header : DataHeader) : OutputStream :=
  let f := outs.base
  let outs := outs.setFill '0' |>.put ['('] |>.putNat header.id.toNat |>.put [',', ' ']
    |>.putNat header.type.value.toNat |>.put [',', ' ', '0', 'x'] |>.setBase 16 |>.setWidth (2 * 2)
    |>.putNat header.bodySize.toNat |>.put [',', ' '] |>.setBase 10
    |>.putInt 64 header.timestamp.toInt |>.put [')']
  outs.setBase f

/-- `operator<<` of a Java symbol. -/
def JavaSymbol.print (outs : OutputStream) (symbol : JavaSymbol) : OutputStream :=
  let f := outs.base
  let outs := outs.setFill '0' |>.setBase 16 |>.put ['(', '0', 'x'] |>.setWidth (8 * 2)
    |>.putNat symbol.address.toNat |>.put [',', ' ', '0', 'x'] |>.setWidth (4 * 2)
    |>.putNat symbol.length.toNat |>.put [',', ' ', '"'] |>.put (asChars symbol.symbol.bytes)
    |>.put ['"', ')']
  outs.setBase f

/-- `operator<<` of a ping. -/
def Ping.print (outs : OutputStream) : OutputStream := outs.put ['(', ')']

/-- One byte of binary data, as an `int`. -/
def BinaryData.printByte (outs : OutputStream) (i : UInt8) : OutputStream :=
  (outs.setWidth (1 * 2)).putInt 32 i.toNat

/-- `operator<<` of binary data. -/
def BinaryData.print (outs : OutputStream) (data : BinaryData) : OutputStream :=
  let f := outs.base
  let outs := outs.setFill '0' |>.setBase 16 |>.put ['(']
  let outs := data.data.bytes.foldl printByte outs
  let outs := outs.put [')']
  outs.setBase f

/-- What is printed in front of a Java symbol. -/
def JavaSymbol.name : List Char := ['J', 'a', 'v', 'a', 'S', 'y', 'm', 'b', 'o', 'l']

/-- In front of a ping. -/
def Ping.name : List Char := ['P', 'i', 'n', 'g']

/-- In front of binary data. -/
def BinaryData.name : List Char := ['B', 'i', 'n', 'a', 'r', 'y', 'D', 'a', 't', 'a']

/-- What `run_server` prints of an object. -/
def DataObject.print (cout : OutputStream) : DataObject → OutputStream
  | .javaSymbol symbol => (symbol.print (cout.put JavaSymbol.name)).endLine
  | .ping => (Ping.print (cout.put Ping.name)).endLine
  | .binaryData data => (data.print (cout.put BinaryData.name)).endLine

/-! ## What they print -/

open Numeral

/-- The text of a header. -/
def DataHeader.text (header : DataHeader) : List Char :=
  ['('] ++ decimal header.id.toNat ++ [',', ' '] ++ decimal header.type.value.toNat ++
    [',', ' ', '0', 'x'] ++ hexDigits 4 header.bodySize.toNat ++ [',', ' '] ++
    decimal header.timestamp.toInt ++ [')']

/-- The text of a Java symbol. -/
def JavaSymbol.text (symbol : JavaSymbol) : List Char :=
  ['(', '0', 'x'] ++ hexDigits 16 symbol.address.toNat ++ [',', ' ', '0', 'x'] ++
    hexDigits 8 symbol.length.toNat ++ [',', ' ', '"'] ++ asChars symbol.symbol.bytes ++ ['"', ')']

/-- The digits of bytes. -/
def hexBytes (bytes : List UInt8) : List Char := bytes.flatMap fun b => hexDigits 2 b.toNat

/-- The line of an object. -/
def DataObject.line : DataObject → List Char
  | .javaSymbol symbol => JavaSymbol.name ++ symbol.text ++ ['\n']
  | .ping => Ping.name ++ ['(', ')', '\n']
  | .binaryData data => BinaryData.name ++ ['('] ++ hexBytes data.data.bytes ++ [')', '\n']

variable {outs : OutputStream}

/-- A header prints its text, and restores the flags. -/
theorem DataHeader.prints (h : outs.Plain) (header : DataHeader) :
    outs.Prints (header.print outs) header.text := by
  refine ⟨'0', ?_⟩
  simp only [print, text, OutputStream.extend, OutputStream.setFill, OutputStream.setBase,
    OutputStream.setWidth, OutputStream.put, OutputStream.putNat, OutputStream.putInt, h.base, h.width,
    List.leftpad, hexDigits, decimal_natCast, Nat.zero_sub, List.replicate_zero, List.nil_append,
    List.append_assoc, if_true]

/-- So does a Java symbol. -/
theorem JavaSymbol.prints (h : outs.Plain) (symbol : JavaSymbol) :
    outs.Prints (symbol.print outs) symbol.text := by
  refine ⟨'0', ?_⟩
  simp only [print, text, OutputStream.extend, OutputStream.setFill, OutputStream.setBase,
    OutputStream.setWidth, OutputStream.put, OutputStream.putNat, h.base, h.width, List.leftpad,
    hexDigits, Nat.zero_sub, List.replicate_zero, List.nil_append, List.append_assoc]

/-- The loop over the bytes. -/
theorem BinaryData.foldl_printByte (bytes : List UInt8) (hbase : outs.base = 16)
    (hwidth : outs.width = 0) (hfill : outs.fill = '0') :
    bytes.foldl printByte outs = outs.extend (hexBytes bytes) outs.fill := by
  induction bytes generalizing outs with
  | nil => simp [OutputStream.extend, hexBytes]
  | cons b bytes ih =>
      have hone : printByte outs b = outs.extend (hexDigits 2 b.toNat) outs.fill := by
        have hmod : ((b.toNat : ℤ) % 2 ^ 32).toNat = b.toNat := by
          have hlt := b.toNat_lt
          omega
        have hdigits : (if outs.base = 10 then decimal b.toNat
            else Nat.toDigits outs.base ((b.toNat : ℤ) % 2 ^ 32).toNat) =
              Nat.toDigits 16 b.toNat := by
          rw [hbase, if_neg (by decide), hmod]
        rw [printByte, OutputStream.putInt]
        simp only [OutputStream.setWidth, OutputStream.put, hdigits, hfill, hwidth, hexDigits,
          OutputStream.extend]
      have hrest : bytes.foldl printByte (outs.extend (hexDigits 2 b.toNat) outs.fill) =
          (outs.extend (hexDigits 2 b.toNat) outs.fill).extend (hexBytes bytes) outs.fill :=
        ih hbase hwidth hfill
      rw [List.foldl_cons, hone, hrest, OutputStream.extend_extend]
      rfl

/-- And so does binary data. -/
theorem BinaryData.prints (h : outs.Plain) (data : BinaryData) :
    outs.Prints (data.print outs) (['('] ++ hexBytes data.data.bytes ++ [')']) := by
  refine ⟨'0', ?_⟩
  have hopen : ((outs.setFill '0').setBase 16).put ['('] =
      { outs with text := outs.text ++ ['('], fill := '0', base := 16 } := by
    simp [OutputStream.setFill, OutputStream.setBase, OutputStream.put, h.width, List.leftpad]
  have hloop : data.data.bytes.foldl printByte
      { outs with text := outs.text ++ ['('], fill := '0', base := 16 } =
        { outs with text := outs.text ++ ['('] ++ hexBytes data.data.bytes, fill := '0', base := 16 } :=
    foldl_printByte _ rfl h.width rfl
  rw [print, hopen, hloop]
  simp [OutputStream.extend, OutputStream.setBase, OutputStream.put, h.width, List.leftpad]

/-- **What is printed of an object** is its line. -/
theorem DataObject.prints (h : outs.Plain) (o : DataObject) : outs.Prints (o.print outs) o.line := by
  have hname (name : List Char) := OutputStream.Prints.of_put h name
  cases o with
  | javaSymbol symbol =>
      exact ((hname _).trans (symbol.prints ((hname _).plain h))).endLine
  | ping =>
      have hprint := ((hname Ping.name).put h ['(', ')']).endLine
      rwa [List.append_assoc] at hprint
  | binaryData data =>
      have hprint := ((hname BinaryData.name).trans (data.prints ((hname _).plain h))).endLine
      simpa [print, line] using hprint

/-! ## Reading it again -/

/-- The header that is written so. -/
def DataHeader.ofNumbers (p : ((ℤ × ℤ) × ℕ) × ℤ) : DataHeader where
  id := UInt32.ofNat p.1.1.1.toNat
  type := ⟨UInt16.ofNat p.1.1.2.toNat⟩
  bodySize := UInt16.ofNat p.1.2
  timestamp := Int64.ofInt p.2

/-- The numbers of a header. -/
def DataHeader.numbers (header : DataHeader) : ((ℤ × ℤ) × ℕ) × ℤ :=
  (((header.id.toNat, header.type.value.toNat), header.bodySize.toNat), header.timestamp.toInt)

theorem DataHeader.ofNumbers_numbers (header : DataHeader) : ofNumbers header.numbers = header := by
  obtain ⟨id, ⟨type⟩, bodySize, timestamp⟩ := header
  simp [ofNumbers, numbers]

open Format

/-- The text of headers. -/
def DataHeader.textFormat : Format Char DataHeader :=
  (((number ',').behind ['(']).seq ((number ',').behind [' ']) |>.seq
    ((hexNumber 4).behind [' ', '0', 'x']) |>.seq ((number ')').behind [',', ' '])).via
      numbers ofNumbers ofNumbers_numbers

/-- Every header can be written. -/
theorem DataHeader.dom_textFormat (header : DataHeader) : textFormat.dom header := by
  have hlength : (hexDigits 4 header.bodySize.toNat).length = 4 :=
    length_hexDigits (by decide) header.bodySize.toNat_lt
  exact ⟨⟨⟨⟨trivial, not_mem_decimal (by decide) (by decide) _⟩, trivial,
    not_mem_decimal (by decide) (by decide) _⟩, trivial, hlength⟩, trivial,
      not_mem_decimal (by decide) (by decide) _⟩

theorem DataHeader.encode_textFormat (header : DataHeader) :
    textFormat.encode header = header.text := by
  simp [textFormat, text, numbers, via, seq, behind, Format.map, literal, number, delimited, hexNumber,
    fixed]

/-- The bytes of a string are those of its characters. -/
theorem asBytes_asChars (bytes : List UInt8) : asBytes (asChars bytes) = bytes := by
  have hback (b : UInt8) : (Char.ofUInt8 b).toUInt8 = b := by
    apply UInt8.toNat_inj.mp
    change b.toNat % 256 = b.toNat
    exact Nat.mod_eq_of_lt b.toNat_lt
  rw [asBytes, asChars, List.map_map]
  exact List.map_id'' hback bytes

/-- A string is one line if it has no newline. -/
theorem newline_mem_asChars {bytes : List UInt8} : '\n' ∈ asChars bytes ↔ newline ∈ bytes := by
  constructor
  · intro h
    have hmem := List.mem_map_of_mem (f := Char.toUInt8) h
    rwa [← asBytes, asBytes_asChars] at hmem
  · exact fun h => List.mem_map_of_mem (f := Char.ofUInt8) h

/-- The symbol that is written so, with the characters behind its name. -/
def JavaSymbol.ofNumbers (p : (ℕ × ℕ) × List Char) : JavaSymbol :=
  ⟨UInt64.ofNat p.1.1, UInt32.ofNat p.1.2, .ofList (asBytes p.2.dropLast.dropLast)⟩

/-- The numbers of a symbol, and its name with what is behind it. -/
def JavaSymbol.numbers (symbol : JavaSymbol) : (ℕ × ℕ) × List Char :=
  ((symbol.address.toNat, symbol.length.toNat), asChars symbol.symbol.bytes ++ ['"', ')'])

theorem JavaSymbol.ofNumbers_numbers (symbol : JavaSymbol) : ofNumbers symbol.numbers = symbol := by
  have hname : (asChars symbol.symbol.bytes ++ ['"', ')']).dropLast.dropLast =
      asChars symbol.symbol.bytes := by
    rw [List.dropLast_append_of_ne_nil (List.cons_ne_nil _ _)]
    exact List.dropLast_concat
  rw [ofNumbers, numbers, hname, asBytes_asChars, ByteString.ofList_bytes]
  simp

/-- The rest of the line of Java symbols. -/
def JavaSymbol.lineFormat : Format Char JavaSymbol :=
  (((hexNumber 16).behind ['(', '0', 'x']).seq ((hexNumber 8).behind [',', ' ', '0', 'x']) |>.seq
    ((delimited '\n').behind [',', ' ', '"'])).via numbers ofNumbers ofNumbers_numbers

/-- A symbol can be written if its name is one line. -/
theorem JavaSymbol.dom_lineFormat {symbol : JavaSymbol} (h : newline ∉ symbol.symbol.bytes) :
    lineFormat.dom symbol := by
  have haddress : (hexDigits 16 symbol.address.toNat).length = 16 :=
    length_hexDigits (by decide) symbol.address.toNat_lt
  have hlength : (hexDigits 8 symbol.length.toNat).length = 8 :=
    length_hexDigits (by decide) symbol.length.toNat_lt
  refine ⟨⟨⟨trivial, haddress⟩, trivial, hlength⟩, trivial, ?_⟩
  change '\n' ∉ asChars symbol.symbol.bytes ++ ['"', ')']
  rw [List.mem_append, not_or, newline_mem_asChars]
  exact ⟨h, by decide⟩

theorem JavaSymbol.encode_lineFormat (symbol : JavaSymbol) :
    lineFormat.encode symbol = symbol.text ++ ['\n'] := by
  simp [lineFormat, text, numbers, via, seq, behind, Format.map, literal, delimited, hexNumber, fixed]

/-- The bytes with these digits. -/
def ofHexBytes : List Char → List UInt8
  | a :: b :: rest => UInt8.ofNat (value 16 [a, b]) :: ofHexBytes rest
  | _ => []

theorem ofHexBytes_hexBytes (bytes : List UInt8) : ofHexBytes (hexBytes bytes) = bytes := by
  induction bytes with
  | nil => rfl
  | cons b bytes ih =>
      have hlength : (hexDigits 2 b.toNat).length = 2 := length_hexDigits (by decide) b.toNat_lt
      obtain ⟨c, c', hdigits⟩ := List.length_eq_two.mp hlength
      have hvalue := value_hexDigits 2 b.toNat
      rw [hdigits] at hvalue
      have hcons : hexBytes (b :: bytes) = c :: c' :: hexBytes bytes := by
        rw [hexBytes, List.flatMap_cons, hdigits]
        rfl
      rw [hcons, ofHexBytes, hvalue, ih, UInt8.ofNat_toNat]

/-- Digits are no brackets. -/
theorem not_mem_hexBytes (bytes : List UInt8) : ')' ∉ hexBytes bytes := by
  intro h
  obtain ⟨b, -, hb⟩ := List.mem_flatMap.mp h
  rcases List.mem_append.mp hb with hzero | hdigit
  · exact absurd (List.eq_of_mem_replicate hzero) (by decide)
  · have hlt := (spells_toDigits (by decide) (by decide) b.toNat).digits ')' hdigit
    exact absurd hlt (by decide)

/-- The rest of the line of binary data. -/
def BinaryData.lineFormat : Format Char BinaryData :=
  (((delimited ')').behind ['(']).seq (literal ['\n'])).via
    (fun data => (hexBytes data.data.bytes, ())) (fun p => ⟨.ofList (ofHexBytes p.1)⟩)
    fun data => by rw [ofHexBytes_hexBytes, ByteString.ofList_bytes]

theorem BinaryData.dom_lineFormat (data : BinaryData) : lineFormat.dom data :=
  ⟨⟨trivial, not_mem_hexBytes _⟩, trivial⟩

/-- The alternatives. -/
def DataObject.toSum : DataObject → JavaSymbol ⊕ Unit ⊕ BinaryData
  | .javaSymbol symbol => .inl symbol
  | .ping => .inr (.inl ())
  | .binaryData data => .inr (.inr data)

/-- The object of an alternative. -/
def DataObject.ofSum : JavaSymbol ⊕ Unit ⊕ BinaryData → DataObject
  | .inl symbol => .javaSymbol symbol
  | .inr (.inl ()) => .ping
  | .inr (.inr data) => .binaryData data

/-- **The lines of objects**: what is printed in front of them tells which they are. -/
def DataObject.lineFormat : Format Char DataObject :=
  (alt (· = 'J') (JavaSymbol.lineFormat.behind JavaSymbol.name)
    (alt (· = 'P') (literal (Ping.name ++ ['(', ')', '\n'])) (BinaryData.lineFormat.behind BinaryData.name)
      (fun _ _ => rfl) fun _ _ => rfl) (fun _ _ => rfl)
      (by rintro (- | _) - <;> rfl)).map ofSum toSum
    (by rintro (_ | - | _) - <;> rfl) (by rintro (_ | _ | _) <;> rfl)

/-- An object can be written if its name, if it has one, is one line. -/
def DataObject.OneLine : DataObject → Prop
  | .javaSymbol symbol => newline ∉ symbol.symbol.bytes
  | _ => True

theorem DataObject.dom_lineFormat {o : DataObject} (h : o.OneLine) : lineFormat.dom o := by
  cases o with
  | javaSymbol symbol => exact ⟨trivial, JavaSymbol.dom_lineFormat h⟩
  | ping => trivial
  | binaryData data => exact ⟨trivial, BinaryData.dom_lineFormat data⟩

theorem DataObject.encode_lineFormat (o : DataObject) : lineFormat.encode o = o.line := by
  cases o with
  | javaSymbol symbol =>
      change JavaSymbol.name ++ JavaSymbol.lineFormat.encode symbol = _
      rw [JavaSymbol.encode_lineFormat, line, List.append_assoc]
  | ping => rfl
  | binaryData data =>
      change BinaryData.name ++ (['('] ++ (hexBytes data.data.bytes ++ [')']) ++ ['\n']) = _
      simp [line]

end IpcPerformance
