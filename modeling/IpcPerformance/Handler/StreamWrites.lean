import IpcPerformance.Handler.StreamFraming

/-! # Runs of writes on a stream socket

`StreamSocket::write` hands header and body to `send` at once and returns true unless `send` failed.
`send` may also accept a part of the bytes; then the write has returned true, the frame stays cut, and
the bytes of the next one are taken for its rest. `allOrReported_iff` says that this is the only way
for a run of writes to go wrong. -/

namespace IpcPerformance

/-! ## Messages -/

/-- What one call of `write` is given: the object, the time of the clock, and what the system call
will do. -/
structure WriteRequest where
  /-- The object to write. -/
  object : DataObject
  /-- The value of `get_timestamp`. -/
  timestamp : Int64
  /-- The outcome of the system call that sends. -/
  send : SendOutcome

/-- The messages of accepted objects, counted up from the last id. -/
def messages : UInt32 → List WriteRequest → List (DataHeader × DataObject)
  | _, [] => []
  | id, r :: rs =>
      (outgoingHeader (id + 1) r.object r.object.bodySize r.timestamp, r.object) ::
        messages (id + 1) rs

/-- The bytes of messages sent one after the other. -/
def messageBytes (ms : List (DataHeader × DataObject)) : List UInt8 :=
  ms.flatMap fun m => messageImage m.1 m.2

/-- The body of a message within the limit leaves room for the header. -/
theorem length_image_le {o : DataObject} (h : o.Fits) : o.image.length ≤ 512 := by
  have hfits : DataHeader.headerSize + o.bodySize ≤ bufferSize := h
  rw [o.length_image]
  simp only [bufferSize] at hfits
  omega

/-- The frame of a message. -/
def messageFrame (id : UInt32) (o : DataObject) (timestamp : Int64) (h : o.Fits) : Frame where
  header := outgoingHeader id o o.bodySize timestamp
  body := o.image
  bodySize_eq := toNat_bodySize_eq_length id o timestamp h
  length_le := length_image_le h

/-- The frame of a message gives the message. -/
theorem result_messageFrame (id : UInt32) (o : DataObject) (timestamp : Int64) (h : o.Fits) :
    (messageFrame id o timestamp h).result =
      .ok (outgoingHeader id o o.bodySize timestamp, o) := by
  have hresult := readResult_image id o timestamp [] h
  rw [List.append_nil] at hresult
  rw [Frame.result_eq]
  exact hresult

/-- Messages are frames: they have the same bytes, and give the messages back. -/
theorem exists_frames_messages (id : UInt32) (requests : List WriteRequest)
    (h : ∀ r ∈ requests, r.object.Fits) :
    ∃ frames, wireImage frames = messageBytes (messages id requests) ∧
      frames.map Frame.result = (messages id requests).map .ok := by
  induction requests generalizing id with
  | nil => exact ⟨[], rfl, rfl⟩
  | cons r rs ih =>
      obtain ⟨frames, himage, hresults⟩ := ih (id + 1) fun r' hr' => h r' (List.mem_cons_of_mem _ hr')
      have hfits := h r List.mem_cons_self
      refine ⟨messageFrame (id + 1) r.object r.timestamp hfits :: frames, ?_, ?_⟩
      · rw [wireImage, List.flatMap_cons, ← wireImage, himage]
        rfl
      · rw [List.map_cons, hresults, result_messageFrame]
        rfl

/-- A server that reads what messages sent obtains the messages, whatever the segments. -/
theorem StreamSocket.reads_messages (id : UInt32) (requests : List WriteRequest)
    (h : ∀ r ∈ requests, r.object.Fits) {server : StreamSocket} (hopen : server.cfd ≠ -1)
    {stream : ByteStream} (hrel : stream.Reliable)
    (hpending : stream.pending = messageBytes (messages id requests)) :
    ∃ N, ∀ n ≥ N, ∃ results last, readStep.run n (server, stream) = .ok (results, last) ∧
      results.filterMap delivered = (messages id requests).map .ok := by
  obtain ⟨frames, himage, hresults⟩ := exists_frames_messages id requests h
  have hreading : Reading (server, stream) ((messages id requests).map .ok) :=
    ⟨hopen, hrel, frames, by rw [hpending, himage], hresults.symm⟩
  exact ⟨_, fun n hn => readStep_delivers.run_complete hreading hn⟩

/-! ## Runs of writes -/

namespace StreamSocket

/-- The socket a write leaves behind. -/
def afterWrite (socket : StreamSocket) (r : WriteRequest) : StreamSocket :=
  let call := socket.write r.object r.timestamp r.send
  { socket with buffer := call.buffer, lastId := call.lastId }

/-- The calls of a sequence of writes. -/
def writes : StreamSocket → List WriteRequest → List WriteCall
  | _, [] => []
  | socket, r :: rs =>
      socket.write r.object r.timestamp r.send :: writes (socket.afterWrite r) rs

/-- The bytes the kernel has accepted in a sequence of calls. -/
def sentBytes (calls : List WriteCall) : List UInt8 := calls.flatMap WriteCall.sent

/-- **All or reported**: a write returns true only when the whole frame has been accepted; and as long
as all have returned true, the bytes accepted are the messages, and a server that gets them in any
segments reads the messages. -/
def AllOrReported (client : StreamSocket) (requests : List WriteRequest) : Prop :=
  (∀ p ∈ requests.zip (writes client requests), p.2.result = true →
    p.2.sent.length = DataHeader.headerSize + p.1.object.bodySize) ∧
  ∀ sofar, sofar <+: requests → (∀ call ∈ writes client sofar, call.result = true) →
    sentBytes (writes client sofar) = messageBytes (messages client.lastId sofar) ∧
    ∀ (server : StreamSocket) (stream : ByteStream), server.cfd ≠ -1 → stream.Reliable →
      stream.pending = sentBytes (writes client sofar) →
      ∃ N, ∀ n ≥ N, ∃ results last, readStep.run n (server, stream) = .ok (results, last) ∧
        results.filterMap delivered = (messages client.lastId sofar).map .ok

/-- `send` does not stop within the message: it fails, or accepts all that is offered. -/
def NotShort (r : WriteRequest) : Prop :=
  r.object.Fits → r.send ≠ .fail →
    r.send.accepted (DataHeader.headerSize + r.object.bodySize) =
      DataHeader.headerSize + r.object.bodySize

/-- **What a write does** on a connected client: an object that fits is offered to `send`, any other
one is rejected. -/
theorem write_cases {client : StreamSocket} (hopen : client.sfd ≠ -1) (r : WriteRequest) :
    (r.object.Fits ∧ ∃ buffer, client.write r.object r.timestamp r.send =
      ⟨r.send ≠ .fail, buffer, client.lastId + 1,
        (messageImage (outgoingHeader (client.lastId + 1) r.object r.object.bodySize r.timestamp)
          r.object).take (r.send.accepted (DataHeader.headerSize + r.object.bodySize))⟩) ∨
    (¬ r.object.Fits ∧ client.write r.object r.timestamp r.send =
      ⟨false, client.buffer, client.lastId, []⟩) := by
  by_cases hfits : r.object.Fits
  · left
    obtain ⟨buffer, hwrite⟩ := bufferedWrite_of_le client.buffer client.lastId r.object r.timestamp
      r.send hfits
    refine ⟨hfits, buffer, ?_⟩
    rw [write, decide_eq_true hopen]
    exact hwrite
  · right
    refine ⟨hfits, ?_⟩
    rw [write, decide_eq_true hopen]
    exact bufferedWrite_of_lt _ _ _ _ _ hfits

/-- One write reports a short send exactly when it is not short. -/
theorem write_whole_iff {client : StreamSocket} (hopen : client.sfd ≠ -1) (r : WriteRequest) :
    ((client.write r.object r.timestamp r.send).result = true →
      (client.write r.object r.timestamp r.send).sent.length =
        DataHeader.headerSize + r.object.bodySize) ↔ NotShort r := by
  rcases write_cases hopen r with ⟨hfits, buffer, hwrite⟩ | ⟨hfits, hwrite⟩
  · have hle : r.send.accepted (DataHeader.headerSize + r.object.bodySize) ≤
        DataHeader.headerSize + r.object.bodySize := by
      cases r.send with
      | fail => exact Nat.zero_le _
      | accept atMost => exact Nat.min_le_right _ _
    rw [hwrite]
    simp only [decide_eq_true_eq, List.length_take, length_messageImage, Nat.min_eq_left hle]
    exact ⟨fun h _ => h, fun h => h hfits⟩
  · rw [hwrite]
    simp [NotShort, hfits]

/-- A successful write of a whole message sends its bytes. -/
theorem write_sent {client : StreamSocket} (hopen : client.sfd ≠ -1) {r : WriteRequest}
    (hwhole : NotShort r) (hresult : (client.write r.object r.timestamp r.send).result = true) :
    r.object.Fits ∧ (client.afterWrite r).lastId = client.lastId + 1 ∧
      (client.write r.object r.timestamp r.send).sent =
        messageImage (outgoingHeader (client.lastId + 1) r.object r.object.bodySize r.timestamp)
          r.object := by
  rcases write_cases hopen r with ⟨hfits, buffer, hwrite⟩ | ⟨hfits, hwrite⟩
  · rw [hwrite] at hresult
    have hsend : r.send ≠ .fail := of_decide_eq_true hresult
    refine ⟨hfits, by rw [afterWrite, hwrite], ?_⟩
    rw [hwrite]
    simp only
    rw [hwhole hfits hsend, ← length_messageImage, List.take_length]
  · rw [hwrite] at hresult
    cases hresult

/-- A run of successful writes of whole messages sends the messages. -/
theorem writes_sent (client : StreamSocket) (hopen : client.sfd ≠ -1) {requests : List WriteRequest}
    (hwhole : ∀ r ∈ requests, NotShort r)
    (hresults : ∀ call ∈ writes client requests, call.result = true) :
    (∀ r ∈ requests, r.object.Fits) ∧
      sentBytes (writes client requests) = messageBytes (messages client.lastId requests) := by
  induction requests generalizing client with
  | nil => exact ⟨by simp, rfl⟩
  | cons r rs ih =>
      rw [writes, List.forall_mem_cons] at hresults
      rw [List.forall_mem_cons] at hwhole
      obtain ⟨hfits, hid, hsent⟩ := write_sent hopen hwhole.1 hresults.1
      obtain ⟨hfits', hsent'⟩ := ih (client.afterWrite r) hopen hwhole.2 hresults.2
      refine ⟨List.forall_mem_cons.mpr ⟨hfits, hfits'⟩, ?_⟩
      rw [sentBytes] at hsent' ⊢
      rw [writes, List.flatMap_cons, hsent, hsent', hid]
      rfl

/-- In a run of writes every one reports short sends exactly when none is short. -/
theorem forall_zip_writes_iff (client : StreamSocket) (hopen : client.sfd ≠ -1)
    (requests : List WriteRequest) :
    (∀ p ∈ requests.zip (writes client requests), p.2.result = true →
      p.2.sent.length = DataHeader.headerSize + p.1.object.bodySize) ↔
    ∀ r ∈ requests, NotShort r := by
  induction requests generalizing client with
  | nil => simp
  | cons r rs ih =>
      have htail := ih (client.afterWrite r) hopen
      rw [writes, List.zip_cons_cons, List.forall_mem_cons, List.forall_mem_cons, htail,
        ← write_whole_iff hopen r]

/-- **Writes on a stream are all-or-reported exactly when no send is short.** -/
theorem allOrReported_iff (client : StreamSocket) (hopen : client.sfd ≠ -1)
    (requests : List WriteRequest) :
    AllOrReported client requests ↔ ∀ r ∈ requests, NotShort r := by
  rw [AllOrReported, forall_zip_writes_iff client hopen]
  constructor
  · intro h
    exact h.1
  · intro hwhole
    refine ⟨hwhole, fun sofar hsofar hresults => ?_⟩
    obtain ⟨hfits, hsent⟩ :=
      writes_sent client hopen (fun r hr => hwhole r (hsofar.subset hr)) hresults
    refine ⟨hsent, fun server stream hserver hrel hpending => ?_⟩
    exact reads_messages client.lastId sofar hfits hserver hrel (hpending.trans hsent)

/-- A connected client that has not written yet. -/
def freshClient : StreamSocket := ⟨false, true, 3, 3, 0, fun _ => 0⟩

/-- Two pings that are sent whole, and one that is not sent at all. -/
theorem allOrReported_pings :
    AllOrReported freshClient
      [⟨.ping, 10, .accept 15⟩, ⟨.ping, 20, .accept 100⟩, ⟨.ping, 30, .fail⟩] := by
  refine (allOrReported_iff freshClient (by decide) _).mpr ?_
  simp [NotShort, SendOutcome.accepted, DataObject.bodySize, DataHeader.headerSize]

/-- A ping of which one byte is accepted is reported as written. -/
theorem not_allOrReported_short : ¬ AllOrReported freshClient [⟨.ping, 10, .accept 0⟩] := by
  intro h
  have hwhole := (forall_zip_writes_iff _ (by decide) _).mp h.1 _ List.mem_cons_self
  exact absurd (hwhole (by decide) (by decide)) (by decide)

end StreamSocket

end IpcPerformance
