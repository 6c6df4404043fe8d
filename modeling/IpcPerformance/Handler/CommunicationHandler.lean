import IpcPerformance.Library.ByteStream
import IpcPerformance.Object.Codec

/-! # The common part of the communication handlers

`include/handler/communication_handler.hpp`, and the pieces of code handlers share: putting header
and body of an outgoing message into `buffer_` and sending them, and turning a decoded body into the
result of `read`. A call need not return: `Fault` lists the other ways it can end, so the outcome of
a call of type `α` is an `Except Fault α`. -/

namespace IpcPerformance

/-- Size of the buffer and limit of header and body combined. -/
def bufferSize : ℕ := 512 + DataHeader.headerSize

/-- `std::variant<std::tuple<DataHeader, DataObject>, CommunicationError>`. -/
abbrev ReadResult : Type := Except CommunicationError (DataHeader × DataObject)

/-- The ways a call ends without returning. -/
inductive Fault
  /-- A loop that goes on for ever. -/
  | hang
  /-- A failed `assert`. -/
  | assertion
  /-- An exception nobody catches. -/
  | uncaught
  /-- An access outside the object, which is undefined. -/
  | outOfBounds
  deriving DecidableEq, Repr

/-! ## Outgoing messages -/

/-- The object fits into a message: header and body combined keep to the documented limit. -/
def DataObject.Fits (o : DataObject) : Prop := DataHeader.headerSize + o.bodySize ≤ bufferSize

instance (o : DataObject) : Decidable o.Fits :=
  inferInstanceAs (Decidable (DataHeader.headerSize + o.bodySize ≤ bufferSize))

/-- The header the writers put in front of an object of `size` serialized bytes. -/
def outgoingHeader (id : UInt32) (o : DataObject) (size : ℕ) (timestamp : Int64) : DataHeader :=
  ⟨id, o.getType, UInt16.ofNat size, timestamp⟩

/-- The bytes of a message in a buffer: header, then body. -/
def messageImage (header : DataHeader) (o : DataObject) : List UInt8 := header.image ++ o.image

/-- The start of every `write` that sends from `buffer_`: serialize the body behind the header,
count up `last_id_`, serialize the header. The result is `buffer_` together with the new `last_id_`
and the body size, or with nothing when the object does not fit. -/
def assemble (buffer : Memory UInt8) (lastId : UInt32) (o : DataObject) (timestamp : Int64) :
    Memory UInt8 × Option (UInt32 × ℕ) :=
  let (size, buffer) :=
    o.serialize buffer DataHeader.headerSize (bufferSize - DataHeader.headerSize)
  if size = -1 then (buffer, none)
  else
    let lastId := lastId + 1
    let header := outgoingHeader lastId o size.toNat timestamp
    let (_, buffer) := header.serialize buffer 0 DataHeader.headerSize
    (buffer, some (lastId, size.toNat))

/-- Outcome of a system call that sends: it fails, or accepts some of the bytes offered, at least
one. -/
inductive SendOutcome
  | fail
  | accept (atMost : ℕ)
  deriving DecidableEq

/-- Number of bytes the call accepts out of `offered`. -/
def SendOutcome.accepted (offered : ℕ) : SendOutcome → ℕ
  | fail => 0
  | accept atMost => min (atMost + 1) offered

/-- A call of `write`: its result, the fields it leaves and the bytes that were accepted. -/
structure WriteCall where
  /-- The value returned. -/
  result : Bool
  /-- The bytes of `buffer_`. -/
  buffer : Memory UInt8
  /-- Id of the last message written. -/
  lastId : UInt32
  /-- The bytes the system call accepted. -/
  sent : List UInt8

/-- The body of every `write` that sends `header_size + size` bytes of `buffer_` with one system call
and reports whether that failed. -/
def bufferedWrite (isOpen : Bool) (buffer : Memory UInt8) (lastId : UInt32) (o : DataObject)
    (timestamp : Int64) (send : SendOutcome) : WriteCall :=
  if isOpen then
    match assemble buffer lastId o timestamp with
    | (buffer, none) => ⟨false, buffer, lastId, []⟩
    | (buffer, some (lastId, size)) =>
        let offered := buffer.read 0 (DataHeader.headerSize + size)
        ⟨send ≠ .fail, buffer, lastId, offered.take (send.accepted offered.length)⟩
  else ⟨false, buffer, lastId, []⟩

@[simp] theorem length_messageImage (header : DataHeader) (o : DataObject) :
    (messageImage header o).length = DataHeader.headerSize + o.bodySize := by
  simp [messageImage]

/-- An object within the limit is assembled: header and body stand at the start of the buffer. -/
theorem assemble_of_le (buffer : Memory UInt8) (lastId : UInt32) (o : DataObject)
    (timestamp : Int64) (h : o.Fits) :
    ∃ buffer', assemble buffer lastId o timestamp = (buffer', some (lastId + 1, o.bodySize)) ∧
      buffer'.read 0 (DataHeader.headerSize + o.bodySize) =
        messageImage (outgoingHeader (lastId + 1) o o.bodySize timestamp) o := by
  have hfit : o.bodySize ≤ bufferSize - DataHeader.headerSize := by
    simp only [DataObject.Fits] at h
    omega
  have hne : ((o.bodySize : ℤ)) ≠ -1 := by omega
  have hbody := o.serialize_of_le buffer DataHeader.headerSize
    (show bufferSize - DataHeader.headerSize < 2 ^ 31 by decide) hfit
  set header := outgoingHeader (lastId + 1) o o.bodySize timestamp with hheader
  refine ⟨(buffer.write DataHeader.headerSize o.image).write 0 header.image, ?_, ?_⟩
  · simp only [assemble, hbody, if_neg hne, Int.toNat_natCast, DataHeader.serialize_headerSize]
    rw [hheader]
  · have hlow : ((buffer.write DataHeader.headerSize o.image).write 0 header.image).read 0
        DataHeader.headerSize = header.image := by
      rw [Memory.read_write_take _ _ _ _ (by simp), ← header.length_image, List.take_length]
    have hhigh : ((buffer.write DataHeader.headerSize o.image).write 0 header.image).read
        (0 + DataHeader.headerSize) o.bodySize = o.image := by
      rw [Nat.zero_add, Memory.read_write_of_disjoint _ _ (Or.inr (by simp)), ← o.length_image,
        Memory.read_write]
    rw [Memory.read_add, hlow, hhigh, messageImage]

/-- An object over the limit is rejected: the buffer and `last_id_` stay as they are. -/
theorem assemble_of_lt (buffer : Memory UInt8) (lastId : UInt32) (o : DataObject)
    (timestamp : Int64) (h : ¬ o.Fits) :
    assemble buffer lastId o timestamp = (buffer, none) := by
  have hbody := o.serialize_of_lt buffer DataHeader.headerSize
    (show bufferSize - DataHeader.headerSize < o.bodySize by
      simp only [DataObject.Fits, bufferSize] at h ⊢
      omega)
  simp [assemble, hbody]

/-- Writing an object within the limit: a part of its message is accepted, or none. -/
theorem bufferedWrite_of_le (buffer : Memory UInt8) (lastId : UInt32) (o : DataObject)
    (timestamp : Int64) (send : SendOutcome) (h : o.Fits) :
    ∃ buffer', bufferedWrite true buffer lastId o timestamp send =
      ⟨send ≠ .fail, buffer', lastId + 1,
        (messageImage (outgoingHeader (lastId + 1) o o.bodySize timestamp) o).take
          (send.accepted (DataHeader.headerSize + o.bodySize))⟩ := by
  obtain ⟨buffer', hassemble, hread⟩ := assemble_of_le buffer lastId o timestamp h
  refine ⟨buffer', ?_⟩
  simp only [bufferedWrite, if_true, hassemble, hread, length_messageImage]

/-- Writing an object over the limit changes nothing. -/
theorem bufferedWrite_of_lt (buffer : Memory UInt8) (lastId : UInt32) (o : DataObject)
    (timestamp : Int64) (send : SendOutcome) (h : ¬ o.Fits) :
    bufferedWrite true buffer lastId o timestamp send = ⟨false, buffer, lastId, []⟩ := by
  simp only [bufferedWrite, if_true, assemble_of_lt buffer lastId o timestamp h]

/-! ## Incoming messages -/

/-- A window of `buffer_` handed to the kernel to fill. -/
structure RecvCall where
  /-- Index of the first byte. -/
  start : ℕ
  /-- Number of bytes requested. -/
  length : ℕ
  deriving DecidableEq, Repr

/-- The window lies inside `buffer_`. -/
def RecvCall.Inside (call : RecvCall) : Prop := call.start + call.length ≤ bufferSize

instance (call : RecvCall) : Decidable call.Inside :=
  inferInstanceAs (Decidable (call.start + call.length ≤ bufferSize))

/-- A call of `read` on a stream: its outcome, the state it leaves and the windows it asked the kernel
to fill. -/
structure ReadCall where
  /-- How the call ended. -/
  outcome : Except Fault ReadResult
  /-- The bytes of `buffer_`. -/
  buffer : Memory UInt8
  /-- What is left of the stream. -/
  stream : ByteStream
  /-- The windows, in order. -/
  calls : List RecvCall

/-- A read that goes on as another one. -/
def ReadCall.after (calls : List RecvCall) (call : ReadCall) : ReadCall :=
  { call with calls := calls ++ call.calls }

/-- The end of every `read`: the header with the decoded object, or the decoding error. -/
def readResult (header : DataHeader) (body : Except CommunicationError DataObject) : ReadResult :=
  match body with
  | .ok o => .ok (header, o)
  | .error e => .error e

/-- Only a decoded body gives a message, and the header is the one read. -/
theorem eq_of_readResult_eq_ok {header header' : DataHeader}
    {body : Except CommunicationError DataObject} {o : DataObject}
    (h : readResult header body = .ok (header', o)) : header' = header ∧ body = .ok o := by
  cases body with
  | error e => cases h
  | ok o' =>
      cases h
      exact ⟨rfl, rfl⟩

/-- The body size field of a message within the limit holds the body size. -/
theorem toNat_bodySize_outgoingHeader (id : UInt32) (o : DataObject) (timestamp : Int64)
    (h : o.Fits) :
    (outgoingHeader id o o.bodySize timestamp).bodySize.toNat = o.bodySize := by
  simp only [DataObject.Fits, bufferSize, DataHeader.headerSize] at h
  rw [outgoingHeader, UInt16.toNat_ofNat', Nat.mod_eq_of_lt (by omega)]

/-- The header of a message within the limit announces its body. -/
theorem toNat_bodySize_eq_length (id : UInt32) (o : DataObject) (timestamp : Int64) (h : o.Fits) :
    (outgoingHeader id o o.bodySize timestamp).bodySize.toNat = o.image.length := by
  rw [toNat_bodySize_outgoingHeader id o timestamp h, o.length_image]

/-- The body of a message within the limit decodes to the object that was sent. -/
theorem readResult_image (id : UInt32) (o : DataObject) (timestamp : Int64) (rest : List UInt8)
    (h : o.Fits) :
    readResult (outgoingHeader id o o.bodySize timestamp)
      (DataObject.ofImage (outgoingHeader id o o.bodySize timestamp).type (o.image ++ rest)) =
        .ok (outgoingHeader id o o.bodySize timestamp, o) := by
  simp only [DataObject.Fits, bufferSize, DataHeader.headerSize] at h
  rw [outgoingHeader, o.ofImage_image_append (by omega)]
  rfl

end IpcPerformance
