import IpcPerformance.Object.DataHeader

/-! # Data objects

The three payloads of `include/object` and their codecs (`src/object/*.cpp`), the variant
`DataObject` over them, and `deserialize_data_object` of `src/utility.cpp`. A serializer returns the
`int` of the source together with the memory it leaves; a deserializer is given the memory, the
address of the buffer and its size. -/

namespace IpcPerformance

open LittleEndian

/-! ## Errors -/

/-- Errors of the connection handler. -/
inductive CommunicationError
  /-- Connection has been closed. -/
  | connectionClosed
  /-- No data available to read. -/
  | noDataAvailable
  /-- Error while reading. -/
  | readError
  /-- Invalid format of header. -/
  | invalidHeader
  /-- Invalid data received. -/
  | invalidData
  /-- Unknown type or data received. -/
  | unknownData
  deriving DecidableEq, Repr

/-! ## Pings -/

/-- `Ping::serialize`: an empty body. -/
def Ping.serialize (mem : Memory UInt8) (_buffer _size : ℕ) : ℤ × Memory UInt8 := (0, mem)

/-- `Ping::deserialize`. -/
def Ping.deserialize (_mem : Memory UInt8) (_buffer _size : ℕ) : Option Unit := some ()

/-! ## Byte strings -/

/-- The contents of a `std::string` or a `std::vector<std::byte>`; neither is ever longer than its
`max_size`, which is below `2 ^ 63`. -/
@[ext] structure ByteString where
  /-- The bytes. -/
  bytes : List UInt8
  /-- The container can hold them. -/
  length_lt : bytes.length < 2 ^ 63
  deriving DecidableEq

namespace ByteString

/-- Number of bytes. -/
def length (s : ByteString) : ℕ := s.bytes.length

/-- The empty string. -/
def empty : ByteString := ⟨[], by simp⟩

/-- `resize(n)` followed by a `memcpy` of `n` bytes from address `a`. -/
def ofMemory (mem : Memory UInt8) (a : ℕ) (n : UInt32) : ByteString where
  bytes := mem.read a n.toNat
  length_lt := by
    have := n.toNat_lt
    rw [Memory.length_read]
    omega

@[simp] theorem length_bytes (s : ByteString) : s.bytes.length = s.length := rfl

end ByteString

/-! ## Java symbols -/

/-- Object with Java symbol and address area. -/
structure JavaSymbol where
  /-- Address of the symbol. -/
  address : UInt64
  /-- Length of the symbol address area. -/
  length : UInt32
  /-- Name of the symbol. -/
  symbol : ByteString
  deriving DecidableEq

namespace JavaSymbol

/-- `sizeof(address_) + sizeof(length_) + sizeof(std::uint32_t)`. -/
def headerSize : ℕ := 16

/-- `JavaSymbol::serialize`. -/
def serialize (self : JavaSymbol) (mem : Memory UInt8) (buffer size : ℕ) : ℤ × Memory UInt8 :=
  let objSize := sizeT (headerSize + self.symbol.length)
  if objSize > size then (-1, mem)
  else
    let mem := mem.write buffer (toBytes 8 self.address.toNat)
    let mem := mem.write (buffer + 8) (toBytes 4 self.length.toNat)
    let length := UInt32.ofNat self.symbol.length
    let mem := mem.write (buffer + 12) (toBytes 4 length.toNat)
    let mem := mem.write (buffer + 16) (self.symbol.bytes.take length.toNat)
    (castInt objSize, mem)

/-- `JavaSymbol::deserialize`. -/
def deserialize (mem : Memory UInt8) (buffer size : ℕ) : Option JavaSymbol :=
  if size < headerSize then none
  else
    let address := UInt64.ofNat (ofBytes (mem.read buffer 8))
    let length := UInt32.ofNat (ofBytes (mem.read (buffer + 8) 4))
    let symbolLength := UInt32.ofNat (ofBytes (mem.read (buffer + 12) 4))
    if size < sizeT (headerSize + symbolLength.toNat) then none
    else if symbolLength = 0 then some ⟨address, length, .empty⟩
    else some ⟨address, length, .ofMemory mem (buffer + 16) symbolLength⟩

end JavaSymbol

/-! ## Binary data -/

/-- Object with binary data of fixed size. -/
structure BinaryData where
  /-- Data of this object. -/
  data : ByteString
  deriving DecidableEq

namespace BinaryData

/-- `sizeof(std::uint32_t)`. -/
def headerSize : ℕ := 4

/-- `BinaryData::serialize`. -/
def serialize (self : BinaryData) (mem : Memory UInt8) (buffer size : ℕ) : ℤ × Memory UInt8 :=
  let totalSize := sizeT (headerSize + self.data.length)
  if totalSize > size then (-1, mem)
  else
    let length := UInt32.ofNat self.data.length
    let mem := mem.write buffer (toBytes 4 length.toNat)
    let mem := mem.write (buffer + 4) (self.data.bytes.take length.toNat)
    (castInt totalSize, mem)

/-- `BinaryData::deserialize`. -/
def deserialize (mem : Memory UInt8) (buffer size : ℕ) : Option BinaryData :=
  if size < headerSize then none
  else
    let length := UInt32.ofNat (ofBytes (mem.read buffer 4))
    if size < sizeT (headerSize + length.toNat) then none
    else if length = 0 then some ⟨.empty⟩
    else some ⟨.ofMemory mem (buffer + 4) length⟩

end BinaryData

/-! ## The variant of all objects -/

/-- `std::variant<Ping, JavaSymbol, BinaryData>`. -/
inductive DataObject
  | ping
  | javaSymbol (symbol : JavaSymbol)
  | binaryData (data : BinaryData)
  deriving DecidableEq

namespace DataObject

/-- `IDataObject::get_type`. -/
def getType : DataObject → DataType
  | .ping => .ping
  | .javaSymbol _ => .javaSymbolLookup
  | .binaryData _ => .binaryData

/-- `IDataObject::serialize`. -/
def serialize : DataObject → Memory UInt8 → ℕ → ℕ → ℤ × Memory UInt8
  | .ping => Ping.serialize
  | .javaSymbol symbol => symbol.serialize
  | .binaryData data => data.serialize

end DataObject

/-- `deserialize_data_object`: the object of the given type, or the error. -/
def deserializeDataObject (type : DataType) (mem : Memory UInt8) (buffer size : ℕ) :
    Except CommunicationError DataObject :=
  if type = .invalid then .error .invalidData
  else if type = .ping then
    match Ping.deserialize mem buffer size with
    | none => .error .invalidData
    | some _ => .ok .ping
  else if type = .javaSymbolLookup then
    match JavaSymbol.deserialize mem buffer size with
    | none => .error .invalidData
    | some symbol => .ok (.javaSymbol symbol)
  else if type = .binaryData then
    match BinaryData.deserialize mem buffer size with
    | none => .error .invalidData
    | some data => .ok (.binaryData data)
  else .error .unknownData

end IpcPerformance
