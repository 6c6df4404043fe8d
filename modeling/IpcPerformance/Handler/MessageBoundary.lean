import IpcPerformance.Handler.CommunicationHandler

/-! # Transports with message boundaries

`DatagramSocket` and `MessageQueue` (`src/handler/datagram_socket.cpp`, `message_queue.cpp`). The kernel
keeps messages apart and hands out one at a time, so a reader takes header and body in one call, and
the number of bytes it is given says where the body ends. Both readers decode the header before they
look at that number, and then assert that header and number agree, in arithmetic of type `size_t`.

* `outcomeOf_of_wellFormed`, `outcomeOf_of_not_wellFormed` — a message that agrees with its header is
  decoded from its own bytes; every other one fails the assertion.
* `sound_iff_wellFormed` — for which messages the readers answer at all. -/

namespace IpcPerformance

/-! ## The handlers -/

/-- What the kernel reports to a reader. -/
inductive BoundaryEvent
  | again
  | fail
  | message (bytes : List UInt8)
  deriving DecidableEq

/-- A message in a queue: `mq_send` refuses what is longer than `mq_msgsize`, which is the size of
the buffer. -/
structure QueueMessage where
  /-- The bytes. -/
  bytes : List UInt8
  /-- They fit the buffer of the reader. -/
  length_le : bytes.length ≤ bufferSize

/-- The end of both readers, when the kernel has put `result` bytes at the start of `buffer_`. -/
def outcomeOf (buffer : Memory UInt8) (result : ℕ) : Except Fault ReadResult :=
  match DataHeader.deserialize buffer 0 DataHeader.headerSize with
  | none => .ok (.error .invalidHeader)
  | some header =>
      -- `assert(header.get_body_size() == result - header_size)`: the difference is unsigned
      if header.bodySize.toNat = sizeT (result + 2 ^ 64 - DataHeader.headerSize) then
        .ok (readResult header (deserializeDataObject header.type buffer DataHeader.headerSize
          header.bodySize.toNat))
      else .error .assertion

/-- The fields of `DatagramSocket` its operations use. -/
structure DatagramSocket where
  /-- Whether this socket is local. -/
  unix : Bool
  /-- Descriptor of the socket, `-1` when it is not open. -/
  sfd : ℤ
  /-- Id of the last message written. -/
  lastId : UInt32
  /-- The bytes of `buffer_`. -/
  buffer : Memory UInt8

namespace DatagramSocket

/-- `DatagramSocket::write`; only the address differs between the two kinds of socket. -/
def write (socket : DatagramSocket) (o : DataObject) (timestamp : Int64) (send : SendOutcome) :
    WriteCall :=
  bufferedWrite (socket.sfd ≠ -1) socket.buffer socket.lastId o timestamp send

/-- `DatagramSocket::read`: the outcome and the bytes of `buffer_`. `recvfrom` cuts a datagram that is
longer than the buffer. -/
def read (socket : DatagramSocket) (event : BoundaryEvent) : Except Fault ReadResult × Memory UInt8 :=
  if socket.sfd = -1 then (.ok (.error .connectionClosed), socket.buffer)
  else
    match event with
    | .again => (.ok (.error .noDataAvailable), socket.buffer)
    | .fail => (.ok (.error .readError), socket.buffer)
    | .message bytes =>
        let received := bytes.take bufferSize
        let buffer := socket.buffer.write 0 received
        (outcomeOf buffer received.length, buffer)

end DatagramSocket

/-- The fields of `MessageQueue` its operations use. -/
structure MessageQueue where
  /-- Descriptor of the queue, `-1` when it is not open. -/
  mqd : ℤ
  /-- Id of the last message written. -/
  lastId : UInt32
  /-- The bytes of `buffer_`. -/
  buffer : Memory UInt8

namespace MessageQueue

/-- `MessageQueue::write`. -/
def write (queue : MessageQueue) (o : DataObject) (timestamp : Int64) (send : SendOutcome) :
    WriteCall :=
  bufferedWrite (queue.mqd ≠ -1) queue.buffer queue.lastId o timestamp send

/-- `MessageQueue::read`: the outcome and the bytes of `buffer_`. -/
def read (queue : MessageQueue) (event : BoundaryEvent) : Except Fault ReadResult × Memory UInt8 :=
  if queue.mqd = -1 then (.ok (.error .connectionClosed), queue.buffer)
  else
    match event with
    | .again => (.ok (.error .noDataAvailable), queue.buffer)
    | .fail => (.ok (.error .readError), queue.buffer)
    | .message bytes =>
        let buffer := queue.buffer.write 0 bytes
        (outcomeOf buffer bytes.length, buffer)

end MessageQueue

/-! ## What becomes of a message -/

/-- The message holds a header, and as many bytes behind it as the header says. -/
def WellFormed (received : List UInt8) : Prop :=
  DataHeader.headerSize ≤ received.length ∧
    (DataHeader.ofImage (received.take DataHeader.headerSize)).bodySize.toNat =
      received.length - DataHeader.headerSize

/-- The result a well-formed message is to give. -/
def messageResult (received : List UInt8) : ReadResult :=
  let header := DataHeader.ofImage (received.take DataHeader.headerSize)
  readResult header (DataObject.ofImage header.type (received.drop DataHeader.headerSize))

/-- The header a reader decodes from a message that holds one is that of the message. -/
theorem deserialize_write_of_le (buffer : Memory UInt8) {received : List UInt8}
    (h : DataHeader.headerSize ≤ received.length) :
    DataHeader.deserialize (buffer.write 0 received) 0 DataHeader.headerSize =
      some (.ofImage (received.take DataHeader.headerSize)) := by
  rw [DataHeader.deserialize_headerSize, Memory.read_write_take _ _ _ _ h]

/-- The unsigned difference is the number of body bytes, if there is a header. -/
theorem sizeT_sub_of_le {n : ℕ} (h : DataHeader.headerSize ≤ n) (hle : n ≤ bufferSize) :
    sizeT (n + 2 ^ 64 - DataHeader.headerSize) = n - DataHeader.headerSize := by
  simp only [sizeT, bufferSize, DataHeader.headerSize] at h hle ⊢
  omega

/-- Without a header the unsigned difference wraps, to more than any body size. -/
theorem lt_sizeT_sub_of_lt {n : ℕ} (h : n < DataHeader.headerSize) (size : UInt16) :
    size.toNat < sizeT (n + 2 ^ 64 - DataHeader.headerSize) := by
  have hsize := size.toNat_lt
  simp only [sizeT, DataHeader.headerSize] at h ⊢
  omega

/-- A well-formed message is decoded from its own bytes. -/
theorem outcomeOf_of_wellFormed (buffer : Memory UInt8) {received : List UInt8}
    (hle : received.length ≤ bufferSize) (h : WellFormed received) :
    outcomeOf (buffer.write 0 received) received.length = .ok (messageResult received) := by
  obtain ⟨hheader, hsize⟩ := h
  have hbody : (buffer.write 0 received).read DataHeader.headerSize
      (received.length - DataHeader.headerSize) = received.drop DataHeader.headerSize := by
    have hwhole := Memory.drop_read (buffer.write 0 received) 0 hheader
    rw [Memory.read_write, Nat.zero_add] at hwhole
    exact hwhole.symm
  simp only [outcomeOf, deserialize_write_of_le buffer hheader, sizeT_sub_of_le hheader hle, hsize,
    if_true, deserializeDataObject_eq, hbody]
  rfl

/-- Any other message fails the assertion, whatever is in the buffer. -/
theorem outcomeOf_of_not_wellFormed (buffer : Memory UInt8) {received : List UInt8}
    (hle : received.length ≤ bufferSize) (h : ¬ WellFormed received) :
    outcomeOf (buffer.write 0 received) received.length = .error .assertion := by
  by_cases hheader : DataHeader.headerSize ≤ received.length
  · have hsize : (DataHeader.ofImage (received.take DataHeader.headerSize)).bodySize.toNat ≠
        received.length - DataHeader.headerSize := fun heq => h ⟨hheader, heq⟩
    simp only [outcomeOf, deserialize_write_of_le buffer hheader, sizeT_sub_of_le hheader hle,
      if_neg hsize]
  · -- the header is made of what is in the buffer, but no header agrees with the wrapped size
    have hlt := lt_sizeT_sub_of_lt (Nat.lt_of_not_le hheader)
    rw [outcomeOf, DataHeader.deserialize_headerSize]
    exact if_neg (hlt _).ne

/-! ## Sound answers -/

/-- The answers of a reader to a message of which it has received `received` are sound: there is one
result it returns in every state, and the header returned with an object says how many bytes there
were. -/
def Sound {σ : Type} (isOpen : σ → Prop) (outcome : σ → Except Fault ReadResult)
    (received : List UInt8) : Prop :=
  ∃ result, (∀ s, isOpen s → outcome s = .ok result) ∧
    ∀ header o, result = .ok (header, o) →
      received.length = DataHeader.headerSize + header.bodySize.toNat

/-- A reader that ends with `outcomeOf` answers soundly exactly the well-formed messages. -/
theorem sound_iff_of_outcomeOf {σ : Type} {isOpen : σ → Prop} {outcome : σ → Except Fault ReadResult}
    (buffer : σ → Memory UInt8) {received : List UInt8} (hle : received.length ≤ bufferSize)
    (houtcome : ∀ s, isOpen s →
      outcome s = outcomeOf ((buffer s).write 0 received) received.length)
    (hopen : ∃ s, isOpen s) : Sound isOpen outcome received ↔ WellFormed received := by
  constructor
  · rintro ⟨result, hresult, -⟩
    obtain ⟨s, hs⟩ := hopen
    by_contra hill
    have hfault := outcomeOf_of_not_wellFormed (buffer s) hle hill
    rw [← houtcome s hs, hresult s hs] at hfault
    cases hfault
  · intro h
    refine ⟨messageResult received, ?_, ?_⟩
    · intro s hs
      rw [houtcome s hs, outcomeOf_of_wellFormed (buffer s) hle h]
    · intro header o hresult
      -- the header returned is the one of the message
      have hheader : header = DataHeader.ofImage (received.take DataHeader.headerSize) :=
        (eq_of_readResult_eq_ok hresult).1
      rw [hheader, h.2]
      exact (Nat.add_sub_cancel' h.1).symm

/-- The datagrams a socket answers soundly. -/
theorem DatagramSocket.sound_iff (bytes : List UInt8) :
    Sound (fun socket : DatagramSocket => socket.sfd ≠ -1)
      (fun socket => (socket.read (.message bytes)).1) (bytes.take bufferSize) ↔
    WellFormed (bytes.take bufferSize) := by
  apply sound_iff_of_outcomeOf DatagramSocket.buffer (List.length_take_le _ _)
  · intro socket hopen
    simp only [read, if_neg hopen]
  · exact ⟨⟨true, 3, 0, fun _ => 0⟩, by decide⟩

/-- The messages of a queue that are answered soundly. -/
theorem MessageQueue.sound_iff (message : QueueMessage) :
    Sound (fun queue : MessageQueue => queue.mqd ≠ -1)
      (fun queue => (queue.read (.message message.bytes)).1) message.bytes ↔
    WellFormed message.bytes := by
  apply sound_iff_of_outcomeOf MessageQueue.buffer message.length_le
  · intro queue hopen
    simp only [read, if_neg hopen]
  · exact ⟨⟨3, 0, fun _ => 0⟩, by decide⟩

/-- **Which messages the readers survive.** A datagram of any length, of which the reader receives at
most what its buffer holds, and a message of a queue are answered soundly exactly when the bytes
received hold a header and as many bytes behind it as the header says. -/
theorem sound_iff_wellFormed (bytes : List UInt8) (message : QueueMessage) :
    (Sound (fun socket : DatagramSocket => socket.sfd ≠ -1)
        (fun socket => (socket.read (.message bytes)).1) (bytes.take bufferSize) ↔
      WellFormed (bytes.take bufferSize)) ∧
    (Sound (fun queue : MessageQueue => queue.mqd ≠ -1)
        (fun queue => (queue.read (.message message.bytes)).1) message.bytes ↔
      WellFormed message.bytes) := by
  constructor
  · exact DatagramSocket.sound_iff bytes
  · exact MessageQueue.sound_iff message

/-- An empty message: both readers compare a header they have not received. -/
theorem not_sound_empty :
    ¬ Sound (fun socket : DatagramSocket => socket.sfd ≠ -1)
      (fun socket => (socket.read (.message [])).1) [] ∧
    ¬ Sound (fun queue : MessageQueue => queue.mqd ≠ -1)
      (fun queue => (queue.read (.message [])).1) [] := by
  have hill : ¬ WellFormed [] := fun h => absurd h.1 (by decide)
  constructor
  · intro h
    exact hill ((DatagramSocket.sound_iff []).mp h)
  · intro h
    exact hill ((MessageQueue.sound_iff ⟨[], by decide⟩).mp h)

end IpcPerformance
