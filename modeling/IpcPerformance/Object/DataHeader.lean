import IpcPerformance.Library.FlatMemory
import IpcPerformance.Library.LittleEndian

/-! # Message headers

`DataType` and `DataHeader` of `include/object`, with the serialization of
`src/object/data_header.cpp`. A header is copied as its 16-byte object representation (little-endian
words in declaration order, no padding), so `DataHeader.image` is that representation and
`DataHeader.ofImage` reads one back. `deserialize` accepts every 16 bytes: no field is checked. -/

namespace IpcPerformance

open LittleEndian

/-! ## Machine arithmetic -/

/-- A value of type `size_t`. -/
def sizeT (n : ℕ) : ℕ := n % 2 ^ 64

/-- `static_cast<int>` of an unsigned value. -/
def castInt (n : ℕ) : ℤ := Int.bmod n (2 ^ 32)

theorem sizeT_of_lt {n : ℕ} (h : n < 2 ^ 64) : sizeT n = n := Nat.mod_eq_of_lt h

theorem castInt_of_lt {n : ℕ} (h : n < 2 ^ 31) : castInt n = n := by
  refine Int.bmod_eq_of_le ?_ ?_
  · norm_num
  · norm_num
    omega

/-! ## Data types -/

/-- `enum class DataType : std::uint16_t`. The underlying type is fixed, so a header read from bytes
can hold any 16-bit value, not only the four enumerators. -/
structure DataType where
  /-- The underlying value. -/
  value : UInt16
  deriving DecidableEq, Repr

namespace DataType

/-- Invalid type. -/
def invalid : DataType := ⟨0⟩

/-- Type for pings. -/
def ping : DataType := ⟨1⟩

/-- Type for Java symbols. -/
def javaSymbolLookup : DataType := ⟨2⟩

/-- Type for binary data. -/
def binaryData : DataType := ⟨3⟩

end DataType

/-! ## Headers -/

/-- Metadata for the actual message. -/
structure DataHeader where
  /-- Id of the message. -/
  id : UInt32
  /-- Type of the message. -/
  type : DataType
  /-- Size of the actual message. -/
  bodySize : UInt16
  /-- Timestamp when the message was created. -/
  timestamp : Int64
  deriving DecidableEq

namespace DataHeader

/-- `sizeof(DataHeader)`. -/
def headerSize : ℕ := 16

/-- The object representation of a header. -/
def image (header : DataHeader) : List UInt8 :=
  toBytes 4 header.id.toNat ++ toBytes 2 header.type.value.toNat ++
    toBytes 2 header.bodySize.toNat ++ toBytes 8 header.timestamp.toUInt64.toNat

/-- The header with the given object representation. -/
def ofImage (bytes : List UInt8) : DataHeader where
  id := UInt32.ofNat (ofBytes (bytes.take 4))
  type := ⟨UInt16.ofNat (ofBytes ((bytes.drop 4).take 2))⟩
  bodySize := UInt16.ofNat (ofBytes ((bytes.drop 6).take 2))
  timestamp := .ofUInt64 (UInt64.ofNat (ofBytes ((bytes.drop 8).take 8)))

/-- `DataHeader::serialize`: the result and the memory with the header at `buffer`. -/
def serialize (header : DataHeader) (mem : Memory UInt8) (buffer size : ℕ) :
    ℤ × Memory UInt8 :=
  if size < headerSize then (-1, mem)
  else (headerSize, mem.write buffer header.image)

/-- `DataHeader::deserialize`. -/
def deserialize (mem : Memory UInt8) (buffer size : ℕ) : Option DataHeader :=
  if size < headerSize then none
  else some (ofImage (mem.read buffer headerSize))

@[simp] theorem length_image (header : DataHeader) : header.image.length = headerSize := by
  simp [image, headerSize]

/-- Reading an object representation gives the header back. -/
@[simp] theorem ofImage_image (header : DataHeader) : ofImage header.image = header := by
  obtain ⟨id, ⟨type⟩, bodySize, timestamp⟩ := header
  simp [ofImage, image, List.drop_append, List.drop_of_length_le, List.take_of_length_le]

/-- Every 16 bytes are the object representation of the header read from them. -/
theorem image_ofImage {bytes : List UInt8} (h : bytes.length = headerSize) :
    (ofImage bytes).image = bytes := by
  rw [headerSize] at h
  have h4 : (bytes.take 4).length = 4 := by simp [h]
  have h2 : ((bytes.drop 4).take 2).length = 2 := by simp [h]
  have h2' : ((bytes.drop 6).take 2).length = 2 := by simp [h]
  have h8 : ((bytes.drop 8).take 8).length = 8 := by simp [h]
  have htail : (bytes.drop 8).take 8 = bytes.drop 8 := List.take_of_length_le (by simp [h])
  have hmid : (bytes.drop 6).take 2 ++ bytes.drop 8 = bytes.drop 6 := by
    simpa using List.take_append_drop 2 (bytes.drop 6)
  have hlow : (bytes.drop 4).take 2 ++ bytes.drop 6 = bytes.drop 4 := by
    simpa using List.take_append_drop 2 (bytes.drop 4)
  simp only [image, ofImage, toBytes_uint32 h4, toBytes_uint16 h2, toBytes_uint16 h2',
    toBytes_uint64 h8]
  rw [htail, List.append_assoc, List.append_assoc, hmid, hlow, List.take_append_drop]

/-- Serializing into a buffer of the header's size copies the image. -/
theorem serialize_headerSize (header : DataHeader) (mem : Memory UInt8) (buffer : ℕ) :
    header.serialize mem buffer headerSize = ((headerSize : ℤ), mem.write buffer header.image) :=
  if_neg (lt_irrefl _)

/-- Deserializing from a buffer of the header's size reads the representation that is there. -/
theorem deserialize_headerSize (mem : Memory UInt8) (buffer : ℕ) :
    deserialize mem buffer headerSize = some (ofImage (mem.read buffer headerSize)) :=
  if_neg (lt_irrefl _)

end DataHeader

end IpcPerformance
