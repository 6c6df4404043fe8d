import IpcPerformance.Library.Format
import IpcPerformance.Object.DataObject

/-! # The body format

The byte format behind the serializers, and that the serializers and deserializers of `DataObject`
implement it.

* `JavaSymbol.format`, `BinaryData.format` — the two formats, put together from words and
  length-prefixed strings; `DataObject.image o` — the bytes of an object; `DataObject.ofImage type
  bytes` — the object of that type a byte string starts with.
* `DataObject.serialize_of_le`, `serialize_of_lt` — serializing is copying the image, or failing on
  a short buffer; `deserializeDataObject_eq` — deserializing is `ofImage` of the bytes in the buffer.
* `DataObject.codec` — the two directions of the round trip together. -/

namespace IpcPerformance

open LittleEndian

/-- A length that fits 32 bits survives the cast. -/
theorem toNat_ofNat_length {n : ℕ} (h : n < 2 ^ 32) : (UInt32.ofNat n).toNat = n := by
  rw [UInt32.toNat_ofNat', Nat.mod_eq_of_lt h]

namespace ByteString

/-- The contents of a list, cut to what a container holds. -/
def ofList (bytes : List UInt8) : ByteString :=
  ⟨bytes.take (2 ^ 63 - 1), lt_of_le_of_lt (List.length_take_le _ _) (by norm_num)⟩

theorem bytes_ofList {bytes : List UInt8} (h : bytes.length < 2 ^ 63) :
    (ofList bytes).bytes = bytes :=
  List.take_of_length_le (by omega)

@[simp] theorem ofList_bytes (s : ByteString) : ofList s.bytes = s := by
  ext1
  exact bytes_ofList s.length_lt

/-- A copy out of memory is the list that was read. -/
theorem ofList_read (mem : Memory UInt8) (a : ℕ) (n : UInt32) :
    ofList (mem.read a n.toNat) = ofMemory mem a n := by
  ext1
  exact bytes_ofList (ofMemory mem a n).length_lt

/-- A copy of nothing is empty. -/
@[simp] theorem ofMemory_zero (mem : Memory UInt8) (a : ℕ) : ofMemory mem a 0 = empty := rfl

end ByteString

/-! ## Java symbols -/

namespace JavaSymbol

/-- Address, length, name behind its length. -/
def format : Format UInt8 JavaSymbol :=
  (Format.uint64.seq (Format.uint32.seq Format.lengthPrefixed)).map
    (fun p => ⟨p.1, p.2.1, .ofList p.2.2⟩)
    (fun s => (s.address, s.length, s.symbol.bytes))
    (fun p h => by
      have hlen : p.2.2.length < 2 ^ 32 := h.2.2
      rw [ByteString.bytes_ofList (by omega)])
    (fun s => by rw [ByteString.ofList_bytes])

@[simp] theorem length_encode (self : JavaSymbol) :
    (format.encode self).length = headerSize + self.symbol.length := by
  simp [format, Format.map, Format.seq, Format.uint64, Format.uint32, Format.ofWord,
    Format.lengthPrefixed, headerSize]
  omega

/-- The object size of the source is the length of the encoding: it does not wrap. -/
theorem sizeT_objSize (self : JavaSymbol) :
    sizeT (headerSize + self.symbol.length) = (format.encode self).length := by
  have : self.symbol.length < 2 ^ 63 := self.symbol.length_lt
  rw [length_encode, sizeT_of_lt]
  simp only [headerSize]
  omega

/-- With enough room `serialize` copies the encoding into the buffer. -/
theorem serialize_of_le (self : JavaSymbol) (mem : Memory UInt8) (buffer : ℕ) {size : ℕ}
    (hsize : size < 2 ^ 31) (h : (format.encode self).length ≤ size) :
    self.serialize mem buffer size =
      (((format.encode self).length : ℤ), mem.write buffer (format.encode self)) := by
  have hlen : self.symbol.length < 2 ^ 32 := by
    rw [length_encode] at h
    omega
  have htake : self.symbol.bytes.take (UInt32.ofNat self.symbol.length).toNat =
      self.symbol.bytes := by
    rw [toNat_ofNat_length hlen, ← ByteString.length_bytes, List.take_length]
  have hwrite : mem.write buffer (format.encode self) =
      (((mem.write buffer (toBytes 8 self.address.toNat)).write (buffer + 8)
        (toBytes 4 self.length.toNat)).write (buffer + 12)
        (toBytes 4 (UInt32.ofNat self.symbol.length).toNat)).write (buffer + 16)
        self.symbol.bytes := by
    rw [toNat_ofNat_length hlen]
    simp [format, Format.map, Format.seq, Format.uint64, Format.uint32, Format.ofWord,
      Format.lengthPrefixed, Memory.write_append]
  simp only [serialize, sizeT_objSize, htake, castInt_of_lt (Nat.lt_of_le_of_lt h hsize), hwrite]
  rw [if_neg (Nat.not_lt.mpr h)]

/-- Without enough room `serialize` fails and touches nothing. -/
theorem serialize_of_lt (self : JavaSymbol) (mem : Memory UInt8) (buffer : ℕ) {size : ℕ}
    (h : size < (format.encode self).length) : self.serialize mem buffer size = (-1, mem) := by
  simp only [serialize, sizeT_objSize]
  rw [if_pos h]

/-- `deserialize` decodes the bytes of the buffer. -/
theorem deserialize_eq (mem : Memory UInt8) (buffer size : ℕ) :
    deserialize mem buffer size = format.value (mem.read buffer size) := by
  simp only [deserialize, Format.value, format, Format.map, Format.seq, Format.uint64,
    Format.uint32, Format.decode_ofWord_read]
  by_cases h8 : size < 8
  · rw [if_pos (show size < headerSize from by simp only [headerSize]; omega), if_pos h8]
    rfl
  rw [if_neg h8]
  simp only [Option.bind_some, Format.decode_ofWord_read]
  by_cases h12 : size - 8 < 4
  · rw [if_pos (show size < headerSize from by simp only [headerSize]; omega), if_pos h12]
    rfl
  rw [if_neg h12]
  simp only [Option.bind_some, Format.decode_lengthPrefixed_read, Nat.add_assoc, Nat.reduceAdd]
  set n := UInt32.ofNat (ofBytes (mem.read (buffer + 12) 4)) with hn
  have hwrap : sizeT (headerSize + n.toNat) = 16 + n.toNat := by
    have := n.toNat_lt
    exact sizeT_of_lt (by simp only [headerSize]; omega)
  rw [hwrap, show headerSize = 16 from rfl]
  by_cases hfit : size < 16 + n.toNat
  · rw [if_pos hfit, if_pos (show size - 8 - 4 < 4 + n.toNat by omega), ite_self]
    rfl
  · rw [if_neg hfit, if_neg (show ¬ size < 16 by omega),
      if_neg (show ¬ size - 8 - 4 < 4 + n.toNat by omega)]
    simp only [Option.map_some, ByteString.ofList_read]
    split
    · rename_i hzero
      rw [hzero, ByteString.ofMemory_zero]
    · rfl

end JavaSymbol

/-! ## Binary data -/

namespace BinaryData

/-- The data behind its length. -/
def format : Format UInt8 BinaryData :=
  Format.lengthPrefixed.map (fun bytes => ⟨.ofList bytes⟩) (fun d => d.data.bytes)
    (fun bytes h => by
      have hlen : bytes.length < 2 ^ 32 := h
      rw [ByteString.bytes_ofList (by omega)])
    (fun d => by rw [ByteString.ofList_bytes])

@[simp] theorem length_encode (self : BinaryData) :
    (format.encode self).length = headerSize + self.data.length := by
  simp [format, Format.map, Format.lengthPrefixed, headerSize]

/-- The total size of the source is the length of the encoding: it does not wrap. -/
theorem sizeT_totalSize (self : BinaryData) :
    sizeT (headerSize + self.data.length) = (format.encode self).length := by
  have : self.data.length < 2 ^ 63 := self.data.length_lt
  rw [length_encode, sizeT_of_lt]
  simp only [headerSize]
  omega

/-- With enough room `serialize` copies the encoding into the buffer. -/
theorem serialize_of_le (self : BinaryData) (mem : Memory UInt8) (buffer : ℕ) {size : ℕ}
    (hsize : size < 2 ^ 31) (h : (format.encode self).length ≤ size) :
    self.serialize mem buffer size =
      (((format.encode self).length : ℤ), mem.write buffer (format.encode self)) := by
  have hlen : self.data.length < 2 ^ 32 := by
    rw [length_encode] at h
    omega
  have htake : self.data.bytes.take (UInt32.ofNat self.data.length).toNat = self.data.bytes := by
    rw [toNat_ofNat_length hlen, ← ByteString.length_bytes, List.take_length]
  have hwrite : mem.write buffer (format.encode self) =
      (mem.write buffer (toBytes 4 (UInt32.ofNat self.data.length).toNat)).write (buffer + 4)
        self.data.bytes := by
    rw [toNat_ofNat_length hlen]
    simp [format, Format.map, Format.lengthPrefixed, Memory.write_append]
  simp only [serialize, sizeT_totalSize, htake, castInt_of_lt (Nat.lt_of_le_of_lt h hsize), hwrite]
  rw [if_neg (Nat.not_lt.mpr h)]

/-- Without enough room `serialize` fails and touches nothing. -/
theorem serialize_of_lt (self : BinaryData) (mem : Memory UInt8) (buffer : ℕ) {size : ℕ}
    (h : size < (format.encode self).length) : self.serialize mem buffer size = (-1, mem) := by
  simp only [serialize, sizeT_totalSize]
  rw [if_pos h]

/-- `deserialize` decodes the bytes of the buffer. -/
theorem deserialize_eq (mem : Memory UInt8) (buffer size : ℕ) :
    deserialize mem buffer size = format.value (mem.read buffer size) := by
  simp only [deserialize, Format.value, format, Format.map, Format.decode_lengthPrefixed_read]
  set n := UInt32.ofNat (ofBytes (mem.read buffer 4)) with hn
  have hwrap : sizeT (headerSize + n.toNat) = 4 + n.toNat := by
    have := n.toNat_lt
    exact sizeT_of_lt (by simp only [headerSize]; omega)
  rw [hwrap, show headerSize = 4 from rfl]
  by_cases hfit : size < 4 + n.toNat
  · rw [if_pos hfit, if_pos hfit, ite_self]
    rfl
  · rw [if_neg hfit, if_neg hfit, if_neg (show ¬ size < 4 by omega)]
    simp only [Option.map_some, ByteString.ofList_read]
    split
    · rename_i hzero
      rw [hzero, ByteString.ofMemory_zero]
    · rfl

end BinaryData

/-! ## All objects -/

namespace DataObject

/-- The bytes of an object. -/
def image : DataObject → List UInt8
  | .ping => []
  | .javaSymbol symbol => JavaSymbol.format.encode symbol
  | .binaryData data => BinaryData.format.encode data

/-- The object of the given type a byte string starts with. -/
def ofImage (type : DataType) (bytes : List UInt8) : Except CommunicationError DataObject :=
  if type = .invalid then .error .invalidData
  else if type = .ping then .ok .ping
  else if type = .javaSymbolLookup then
    match JavaSymbol.format.value bytes with
    | none => .error .invalidData
    | some symbol => .ok (.javaSymbol symbol)
  else if type = .binaryData then
    match BinaryData.format.value bytes with
    | none => .error .invalidData
    | some data => .ok (.binaryData data)
  else .error .unknownData

/-- Decoding gives an object, or says that the data is invalid or of unknown type. -/
theorem ofImage_cases (type : DataType) (bytes : List UInt8) :
    (∃ o, ofImage type bytes = .ok o) ∨ ofImage type bytes = .error .invalidData ∨
      ofImage type bytes = .error .unknownData := by
  rw [ofImage]
  split_ifs
  · exact .inr (.inl rfl)
  · exact .inl ⟨_, rfl⟩
  · cases JavaSymbol.format.value bytes with
    | none => exact .inr (.inl rfl)
    | some symbol => exact .inl ⟨_, rfl⟩
  · cases BinaryData.format.value bytes with
    | none => exact .inr (.inl rfl)
    | some data => exact .inl ⟨_, rfl⟩
  · exact .inr (.inr rfl)

/-- Number of bytes of a serialized object. -/
def bodySize : DataObject → ℕ
  | .ping => 0
  | .javaSymbol symbol => 16 + symbol.symbol.length
  | .binaryData data => 4 + data.data.length

@[simp] theorem length_image (o : DataObject) : o.image.length = o.bodySize := by
  cases o with
  | ping => rfl
  | javaSymbol symbol => exact symbol.length_encode
  | binaryData data => exact data.length_encode

/-- With enough room `serialize` copies the image into the buffer. -/
theorem serialize_of_le (o : DataObject) (mem : Memory UInt8) (buffer : ℕ) {size : ℕ}
    (hsize : size < 2 ^ 31) (h : o.bodySize ≤ size) :
    o.serialize mem buffer size = ((o.bodySize : ℤ), mem.write buffer o.image) := by
  rw [← length_image] at h ⊢
  cases o with
  | ping => simp [serialize, Ping.serialize, image]
  | javaSymbol symbol => exact symbol.serialize_of_le mem buffer hsize h
  | binaryData data => exact data.serialize_of_le mem buffer hsize h

/-- Without enough room `serialize` fails and touches nothing. -/
theorem serialize_of_lt (o : DataObject) (mem : Memory UInt8) (buffer : ℕ) {size : ℕ}
    (h : size < o.bodySize) : o.serialize mem buffer size = (-1, mem) := by
  rw [← length_image] at h
  cases o with
  | ping => cases h
  | javaSymbol symbol => exact symbol.serialize_of_lt mem buffer h
  | binaryData data => exact data.serialize_of_lt mem buffer h

/-- A symbol whose size fits has an encoding. -/
theorem dom_javaSymbol {symbol : JavaSymbol} (h : (javaSymbol symbol).bodySize < 2 ^ 32) :
    JavaSymbol.format.dom symbol := by
  have hlt : symbol.symbol.length < 2 ^ 32 := by
    simp only [bodySize] at h
    omega
  exact ⟨trivial, trivial, hlt⟩

/-- Data whose size fits has one, too. -/
theorem dom_binaryData {data : BinaryData} (h : (binaryData data).bodySize < 2 ^ 32) :
    BinaryData.format.dom data := by
  have hlt : data.data.length < 2 ^ 32 := by
    simp only [bodySize] at h
    omega
  exact hlt

/-- An image, whatever follows it, decodes to its object. -/
theorem ofImage_image_append (o : DataObject) (h : o.bodySize < 2 ^ 32) (rest : List UInt8) :
    ofImage o.getType (o.image ++ rest) = .ok o := by
  cases o with
  | ping => rfl
  | javaSymbol symbol =>
      have hvalue := JavaSymbol.format.value_encode_append (dom_javaSymbol h) rest
      simp [ofImage, image, getType, hvalue, DataType.javaSymbolLookup, DataType.invalid,
        DataType.ping]
  | binaryData data =>
      have hvalue := BinaryData.format.value_encode_append (dom_binaryData h) rest
      simp [ofImage, image, getType, hvalue, DataType.javaSymbolLookup, DataType.invalid,
        DataType.ping, DataType.binaryData]

/-- A truncated image does not decode. -/
theorem ofImage_take (o : DataObject) (h : o.bodySize < 2 ^ 32) {t : ℕ} (ht : t < o.bodySize) :
    ofImage o.getType (o.image.take t) = .error .invalidData := by
  rw [← length_image] at ht
  cases o with
  | ping => cases ht
  | javaSymbol symbol =>
      have hvalue := JavaSymbol.format.value_take (dom_javaSymbol h) ht
      simp [ofImage, image, getType, hvalue, DataType.javaSymbolLookup, DataType.invalid,
        DataType.ping]
  | binaryData data =>
      have hvalue := BinaryData.format.value_take (dom_binaryData h) ht
      simp [ofImage, image, getType, hvalue, DataType.javaSymbolLookup, DataType.invalid,
        DataType.ping, DataType.binaryData]

/-- What decodes starts with the image of the decoded object, which has the asked type. -/
theorem image_prefix_of_ofImage {type : DataType} {bytes : List UInt8} {o : DataObject}
    (h : ofImage type bytes = .ok o) : o.getType = type ∧ o.image <+: bytes := by
  unfold ofImage at h
  split_ifs at h with h₀ h₁ h₂ h₃
  · obtain rfl := Except.ok.inj h
    exact ⟨h₁.symm, List.nil_prefix⟩
  · split at h
    · cases h
    · rename_i symbol hvalue
      obtain rfl := Except.ok.inj h
      exact ⟨h₂.symm, (JavaSymbol.format.encode_prefix hvalue).2⟩
  · split at h
    · cases h
    · rename_i data hvalue
      obtain rfl := Except.ok.inj h
      exact ⟨h₃.symm, (BinaryData.format.encode_prefix hvalue).2⟩

end DataObject

/-- `deserialize_data_object` decodes the bytes of the buffer. -/
theorem deserializeDataObject_eq (type : DataType) (mem : Memory UInt8) (buffer size : ℕ) :
    deserializeDataObject type mem buffer size =
      DataObject.ofImage type (mem.read buffer size) := by
  simp only [deserializeDataObject, Ping.deserialize, JavaSymbol.deserialize_eq,
    BinaryData.deserialize_eq]
  rfl

/-- **The body codec.** Serializing into a buffer of `s` bytes writes the object and nothing else
when it fits and fails without a trace when it does not; what was written decodes to the object for
every size that holds it and to `INVALID_DATA` for every shorter one. Conversely decoding looks at
the given number of bytes only, and loses none of those it used. -/
theorem DataObject.codec :
    (∀ (o : DataObject) (mem : Memory UInt8) (buffer s : ℕ), s < 2 ^ 31 →
      (o.bodySize ≤ s →
        ∃ mem', o.serialize mem buffer s = ((o.bodySize : ℤ), mem') ∧
          (∀ i, i < buffer ∨ buffer + o.bodySize ≤ i → mem' i = mem i) ∧
          (∀ t, o.bodySize ≤ t → t ≤ s →
            deserializeDataObject o.getType mem' buffer t = .ok o) ∧
          ∀ t, t < o.bodySize →
            deserializeDataObject o.getType mem' buffer t = .error .invalidData) ∧
      (s < o.bodySize → o.serialize mem buffer s = (-1, mem))) ∧
    (∀ (type : DataType) (mem : Memory UInt8) (buffer t : ℕ), t < 2 ^ 31 →
      (∀ (mem' : Memory UInt8) (buffer' : ℕ), (∀ i < t, mem (buffer + i) = mem' (buffer' + i)) →
        deserializeDataObject type mem buffer t = deserializeDataObject type mem' buffer' t) ∧
      ∀ o, deserializeDataObject type mem buffer t = .ok o →
        o.bodySize ≤ t ∧
        ∀ (target : Memory UInt8) (dst s : ℕ), o.bodySize ≤ s → s < 2 ^ 31 →
          ∃ target', o.serialize target dst s = ((o.bodySize : ℤ), target') ∧
            ∀ i < o.bodySize, target' (dst + i) = mem (buffer + i)) := by
  refine ⟨fun o mem buffer s hs => ⟨fun hfit => ?_, o.serialize_of_lt mem buffer⟩,
    fun type mem buffer t ht => ⟨fun mem' buffer' hsame => ?_, fun o ho => ?_⟩⟩
  · refine ⟨_, o.serialize_of_le mem buffer hs hfit, ?_, ?_, ?_⟩
    · rintro i (hi | hi)
      · exact Memory.write_apply_of_lt _ _ hi
      · exact Memory.write_apply_of_le _ _ (by rwa [length_image])
    · intro t ht _
      obtain ⟨d, rfl⟩ := Nat.exists_eq_add_of_le ht
      rw [deserializeDataObject_eq, ← length_image, Memory.read_write_add]
      exact o.ofImage_image_append (by omega) _
    · intro t ht
      rw [deserializeDataObject_eq, Memory.read_write_take _ _ _ _ (by rw [length_image]; omega)]
      exact o.ofImage_take (by omega) ht
  · rw [deserializeDataObject_eq, deserializeDataObject_eq, Memory.read_congr.mpr hsame]
  · rw [deserializeDataObject_eq] at ho
    obtain ⟨tail, hbytes⟩ := (image_prefix_of_ofImage ho).2
    have hle : o.bodySize ≤ t := by
      have := congrArg List.length hbytes
      simp only [List.length_append, length_image, Memory.length_read] at this
      omega
    refine ⟨hle, fun target dst s hfit hs => ⟨_, o.serialize_of_le target dst hs hfit, ?_⟩⟩
    -- the bytes of the image are the first ones of the buffer
    have himage : o.image = mem.read buffer o.bodySize := by
      rw [← Memory.take_read mem buffer hle, ← hbytes, List.take_left' o.length_image]
    rw [← Memory.read_congr, ← himage, ← length_image, Memory.read_write]

end IpcPerformance
