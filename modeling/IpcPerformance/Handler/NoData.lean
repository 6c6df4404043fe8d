import IpcPerformance.Handler.Agreement

/-! # No data available

The server loops ignore `NO_DATA_AVAILABLE` and call `read` again, so a read that returns it must not
have taken anything. A `ReadingEnd` is a handler class with what it reads from, whatever is there and
however the system calls end.

* `ReadingEnd.Harmless` — a call that finds no data changes nothing, and a frame that is still
  arriving fails no assert.
* `ReaderClass.harmless_iff` — five of the classes are harmless always, `Fifo` exactly when the pipe
  does not end within a frame. -/

namespace IpcPerformance

/-! ## Reading ends -/

/-- A handler class as a reader. -/
structure ReadingEnd where
  /-- The fields of a handler. -/
  Handler : Type
  /-- What the handler reads from. -/
  Channel : Type
  /-- How the system calls of a read end, as far as the channel does not say so. -/
  Fate : Type
  /-- `read`. -/
  read : Handler → Channel → Fate → Except Fault ReadResult × Handler × Channel
  /-- Nothing has been taken from the channel. -/
  Idle : Channel → Channel → Prop
  /-- The channel has frames in it, whole ones or the beginning of one. -/
  Frames : Handler → Channel → Prop

/-- A read that returns `NO_DATA_AVAILABLE` leaves the handler and the channel as they were, and on
frames no assert fails. -/
def ReadingEnd.Harmless (r : ReadingEnd) (self : r.Handler) (channel : r.Channel) (fate : r.Fate) :
    Prop :=
  (∀ self' channel', r.read self channel fate = (.ok (.error .noDataAvailable), self', channel') →
    self' = self ∧ r.Idle channel channel') ∧
  (r.Frames self channel → (r.read self channel fate).1 ≠ .error .assertion)

namespace ReadingEnd

variable {r : ReadingEnd} {self : r.Handler} {channel : r.Channel} {fate : r.Fate}

/-- A read that does not return `NO_DATA_AVAILABLE`. -/
theorem harmless_of_ne (hdata : (r.read self channel fate).1 ≠ .ok (.error .noDataAvailable))
    (hassert : r.Frames self channel → (r.read self channel fate).1 ≠ .error .assertion) :
    r.Harmless self channel fate :=
  ⟨fun _ _ h => absurd (congrArg Prod.fst h) hdata, hassert⟩

/-- A read that returns another error. -/
theorem harmless_of_error {e : CommunicationError} (he : e ≠ .noDataAvailable)
    (hread : (r.read self channel fate).1 = .ok (.error e)) : r.Harmless self channel fate := by
  apply harmless_of_ne
  · rw [hread]
    intro h
    exact he (Except.error.inj (Except.ok.inj h))
  · intro _
    rw [hread]
    rintro ⟨⟩

/-- A read that leaves everything as it was. -/
theorem harmless_of_idle {channel' : r.Channel}
    (hread : r.read self channel fate = (.ok (.error .noDataAvailable), self, channel'))
    (hidle : r.Idle channel channel') : r.Harmless self channel fate := by
  refine ⟨?_, fun _ => ?_⟩
  · intro self' channel'' h
    rw [hread] at h
    cases h
    exact ⟨rfl, hidle⟩
  · rw [hread]
    rintro ⟨⟩

end ReadingEnd

/-- Stream sockets. Any bytes are frames, the last one of them perhaps cut off. -/
def StreamSocket.readingEnd : ReadingEnd where
  Handler := StreamSocket
  Channel := ByteStream
  Fate := Unit
  read self stream _ :=
    let call := self.read stream
    (call.outcome, { self with buffer := call.buffer }, call.stream)
  Idle := ByteStream.Idle
  Frames _ _ := True

/-- Pipes. Any bytes are frames, the last one of them perhaps cut off. -/
def Fifo.readingEnd : ReadingEnd where
  Handler := Fifo
  Channel := ByteStream
  Fate := Unit
  read self stream _ :=
    let call := self.read stream
    (call.outcome, { self with buffer := call.buffer }, call.stream)
  Idle := ByteStream.Idle
  Frames _ _ := True

/-- What the kernel reports of a queue of messages, and the messages behind, given whether the call
fails. -/
def reportOf (queue : List (List UInt8)) (fails : Bool) : BoundaryEvent × List (List UInt8) :=
  if fails then (.fail, queue) else nextEvent queue

/-- Datagram sockets. A frame arrives as a whole. -/
def DatagramSocket.readingEnd : ReadingEnd where
  Handler := DatagramSocket
  Channel := List (List UInt8)
  Fate := Bool
  read self queue fails :=
    let (event, queue) := reportOf queue fails
    let (outcome, buffer) := self.read event
    (outcome, { self with buffer }, queue)
  Idle := Eq
  Frames _ queue := ∀ bytes ∈ queue, WellFormed (bytes.take bufferSize)

/-- Message queues. A frame arrives as a whole, and `mq_send` refuses what does not fit a buffer. -/
def MessageQueue.readingEnd : ReadingEnd where
  Handler := MessageQueue
  Channel := List (List UInt8)
  Fate := Bool
  read self queue fails :=
    let (event, queue) := reportOf queue fails
    let (outcome, buffer) := self.read event
    (outcome, { self with buffer }, queue)
  Idle := Eq
  Frames _ queue := ∀ bytes ∈ queue, bytes.length ≤ bufferSize ∧ WellFormed bytes

/-- `SharedMemory::read`, given whether `sem_trywait(reader_)` succeeds if there is a message, and
`sem_post(writer_)`. -/
def SharedMemory.readWith (self : RingHandler) (segment : Segment (Memory UInt8))
    (tryWait postWriter : Bool) :
    Except Fault ReadResult × RingHandler × Segment (Memory UInt8) :=
  if self.isOpen then
    if !tryWait then (.ok (.error .readError), self, segment)
    else
      match segment.reader with
      | 0 => (.ok (.error .noDataAvailable), self, segment)
      | reader + 1 =>
          let buffer :=
            self.buffer.write 0 (segment.store.read (self.offset * bufferSize) bufferSize)
          let offset := (self.offset + 1) % totalAmount
          (slotOutcome buffer, { self with offset, buffer },
            { segment with reader, writer := semPost postWriter segment.writer })
  else (.ok (.error .connectionClosed), self, segment)

/-- When nothing fails it is the read of before. -/
theorem SharedMemory.readWith_true (self : RingHandler) (segment : Segment (Memory UInt8)) :
    readWith self segment true true = read self segment := rfl

/-- Shared memory. The slot of the next message holds it before the semaphore says so. -/
def SharedMemory.readingEnd : ReadingEnd where
  Handler := RingHandler
  Channel := Segment (Memory UInt8)
  Fate := Bool × Bool
  read self segment fate := readWith self segment fate.1 fate.2
  Idle := Eq
  Frames self segment := 0 < segment.reader → ∃ m, calls.holds segment.store self.offset m

/-- Shared files. The slot of the next message holds it before the semaphore says so. -/
def SharedFile.readingEnd : ReadingEnd where
  Handler := RingHandler
  Channel := Segment FileContents
  Fate := ReadFate
  read := SharedFile.read
  Idle := Eq
  Frames self segment := 0 < segment.reader → ∃ m, calls.holds segment.store self.offset m

/-! ## Where the result comes from -/

/-- A decoded body, or the error of decoding one, is no lack of data. -/
theorem readResult_ne_noData (header : DataHeader) (type : DataType) (bytes : List UInt8) :
    readResult header (DataObject.ofImage type bytes) ≠ .error .noDataAvailable := by
  rcases DataObject.ofImage_cases type bytes with ⟨o, h⟩ | h | h
  · rw [h]
    rintro ⟨⟩
  · rw [h]
    rintro ⟨⟩
  · rw [h]
    rintro ⟨⟩

/-- Neither is anything a reader makes of a slot. -/
theorem slotOutcome_ne_noData (buffer : Memory UInt8) :
    slotOutcome buffer ≠ .ok (.error .noDataAvailable) := by
  rw [slotOutcome, DataHeader.deserialize_headerSize]
  simp only [deserializeDataObject_eq]
  split_ifs with hsize
  · intro h
    exact readResult_ne_noData _ _ _ (Except.ok.inj h)
  · rintro ⟨⟩

/-- Nor anything a reader makes of a message. -/
theorem outcomeOf_ne_noData (buffer : Memory UInt8) (result : ℕ) :
    outcomeOf buffer result ≠ .ok (.error .noDataAvailable) := by
  rw [outcomeOf, DataHeader.deserialize_headerSize]
  simp only [deserializeDataObject_eq]
  split_ifs with hsize
  · intro h
    exact readResult_ne_noData _ _ _ (Except.ok.inj h)
  · rintro ⟨⟩

/-! ## Stream sockets -/

/-- A receive loop asserts nothing. -/
theorem recvLoop_ne_assertion (limit : ℕ) (again : ℕ → Option CommunicationError)
    (buffer : Memory UInt8) (amount : ℕ) (stream : ByteStream) :
    (recvLoop limit again buffer amount stream).outcome ≠ .error .assertion := by
  fun_induction recvLoop limit again buffer amount stream with
  | case2 buffer amount stream call next hrecv hagain hwork ih => exact ih
  | case6 buffer amount stream call bytes next hrecv hne hmore ih => exact ih
  | _ => rintro ⟨⟩

/-- A receive loop that waits for the rest never finds that there is no data. -/
theorem recvLoop_ne_noData (limit : ℕ) {again : ℕ → Option CommunicationError}
    (hagain : ∀ a, 0 < a → again a = none) (buffer : Memory UInt8) {amount : ℕ}
    (stream : ByteStream) (hamount : again amount = none) :
    (recvLoop limit again buffer amount stream).outcome ≠ .ok (some .noDataAvailable) := by
  fun_induction recvLoop limit again buffer amount stream with
  | case1 buffer amount stream call next hrecv e he =>
      rw [hamount] at he
      cases he
  | case2 buffer amount stream call next hrecv hnone hwork ih => exact ih hamount
  | case6 buffer amount stream call bytes next hrecv hne hmore ih =>
      have hpos : 0 < bytes.length := List.length_pos_iff.mpr hne
      exact ih (hagain _ (by omega))
  | _ => rintro ⟨⟩

namespace StreamSocket

/-- The body part takes what there is, or waits for it. -/
theorem readBody_ne_noData (header : DataHeader) (buffer : Memory UInt8) (stream : ByteStream) :
    (readBody header buffer stream).outcome ≠ .ok (.error .noDataAvailable) ∧
      (readBody header buffer stream).outcome ≠ .error .assertion := by
  unfold readBody
  simp only [deserializeDataObject_eq]
  by_cases hpos : 0 < header.bodySize.toNat
  · have hdata := recvLoop_ne_noData header.bodySize.toNat (fun a _ => bodyAgain_eq a) buffer stream
      (bodyAgain_eq 0)
    have hassert := recvLoop_ne_assertion header.bodySize.toNat bodyAgain buffer 0 stream
    rw [if_pos hpos]
    rcases houtcome : (recvLoop header.bodySize.toNat bodyAgain buffer 0 stream).outcome with
      fault | ⟨_ | e⟩
    · rw [houtcome] at hassert
      refine ⟨by rintro ⟨⟩, ?_⟩
      intro h
      exact hassert (congrArg Except.error (Except.error.inj h))
    · refine ⟨?_, by rintro ⟨⟩⟩
      intro h
      exact readResult_ne_noData _ _ _ (Except.ok.inj h)
    · rw [houtcome] at hdata
      refine ⟨?_, by rintro ⟨⟩⟩
      intro h
      cases h
      exact hdata rfl
  · rw [if_neg hpos]
    refine ⟨?_, by rintro ⟨⟩⟩
    intro h
    exact readResult_ne_noData _ _ _ (Except.ok.inj h)

/-- A header loop that has been given something does not find that there is no data. -/
theorem headerLoop_ne_noData (buffer : Memory UInt8) {stream : ByteStream}
    (hno : ∀ next, stream.recv DataHeader.headerSize ≠ (.again, next)) :
    (recvLoop DataHeader.headerSize headerAgain buffer 0 stream).outcome ≠
      .ok (some .noDataAvailable) := by
  rw [recvLoop, Nat.sub_zero]
  rcases hrecv : stream.recv DataHeader.headerSize with ⟨_ | _ | bytes, next⟩
  · exact absurd hrecv (hno next)
  · rintro ⟨⟩
  · by_cases hnil : bytes = []
    · simp only [if_pos hnil]
      rintro ⟨⟩
    · -- from now on the loop waits for the rest
      have hpos : 0 < 0 + bytes.length := by
        rw [Nat.zero_add]
        exact List.length_pos_iff.mpr hnil
      simp only [if_neg hnil]
      split_ifs with hmore
      · exact recvLoop_ne_noData _ headerAgain_of_pos _ _ (headerAgain_of_pos _ hpos)
      · rintro ⟨⟩

/-- Only the first `recv` of a read can find that there is no data, before it has taken anything. -/
theorem harmless (self : StreamSocket) (stream : ByteStream) :
    readingEnd.Harmless self stream () := by
  by_cases hopen : self.cfd = -1
  · refine ReadingEnd.harmless_of_error (e := .connectionClosed) (by decide) ?_
    simp only [readingEnd, read, if_pos hopen]
  by_cases hagain : ∃ next, stream.recv DataHeader.headerSize = (.again, next)
  · obtain ⟨next, hrecv⟩ := hagain
    obtain ⟨calls, hread⟩ := read_of_again hopen hrecv
    refine ReadingEnd.harmless_of_idle ?_ (ByteStream.idle_of_again hrecv)
    simp only [readingEnd, hread]
  · -- the header loop has bytes when it meets `EAGAIN`, so it waits for the rest
    have hdata := headerLoop_ne_noData self.buffer fun next hrecv => hagain ⟨next, hrecv⟩
    have hassert := recvLoop_ne_assertion DataHeader.headerSize headerAgain self.buffer 0 stream
    have hread : (self.read stream).outcome ≠ .ok (.error .noDataAvailable) ∧
        (self.read stream).outcome ≠ .error .assertion := by
      simp only [read, if_neg hopen, DataHeader.deserialize_headerSize]
      rcases houtcome : (recvLoop DataHeader.headerSize headerAgain self.buffer 0 stream).outcome with
        fault | ⟨_ | e⟩
      · rw [houtcome] at hassert
        refine ⟨by rintro ⟨⟩, ?_⟩
        intro h
        exact hassert (congrArg Except.error (Except.error.inj h))
      · exact readBody_ne_noData _ _ _
      · rw [houtcome] at hdata
        refine ⟨?_, by rintro ⟨⟩⟩
        intro h
        cases h
        exact hdata rfl
    exact ReadingEnd.harmless_of_ne hread.1 fun _ => hread.2

end StreamSocket

/-! ## Messages kept apart -/

/-- Decoding a message is harmless if it agrees with its header: it is never a lack of data. -/
theorem outcomeOf_ne_assertion (buffer : Memory UInt8) {received : List UInt8}
    (hle : received.length ≤ bufferSize) (h : WellFormed received) :
    outcomeOf (buffer.write 0 received) received.length ≠ .error .assertion := by
  rw [outcomeOf_of_wellFormed buffer hle h]
  rintro ⟨⟩

/-- What the kernel can report. -/
theorem reportOf_cases (queue : List (List UInt8)) (fails : Bool) :
    reportOf queue fails = (.fail, queue) ∨
      (queue = [] ∧ reportOf queue fails = (.again, [])) ∨
      ∃ bytes rest, queue = bytes :: rest ∧ reportOf queue fails = (.message bytes, rest) := by
  cases fails with
  | true => exact .inl rfl
  | false =>
      cases queue with
      | nil => exact .inr (.inl ⟨rfl, rfl⟩)
      | cons bytes rest => exact .inr (.inr ⟨bytes, rest, rfl, rfl⟩)

/-- A read takes a whole datagram, or nothing. -/
theorem DatagramSocket.harmless (self : DatagramSocket) (queue : List (List UInt8)) (fails : Bool) :
    readingEnd.Harmless self queue fails := by
  by_cases hopen : self.sfd = -1
  · refine ReadingEnd.harmless_of_error (e := .connectionClosed) (by decide) ?_
    simp only [readingEnd, read, if_pos hopen]
  rcases reportOf_cases queue fails with hreport | ⟨rfl, hreport⟩ | ⟨bytes, rest, rfl, hreport⟩
  · refine ReadingEnd.harmless_of_error (e := .readError) (by decide) ?_
    simp only [readingEnd, hreport, read, if_neg hopen]
  · refine ReadingEnd.harmless_of_idle ?_ (rfl : [] = [])
    simp only [readingEnd, hreport, read, if_neg hopen]
  · apply ReadingEnd.harmless_of_ne
    · simp only [readingEnd, hreport, read, if_neg hopen]
      exact outcomeOf_ne_noData _ _
    · intro hframes
      simp only [readingEnd, hreport, read, if_neg hopen]
      have hwell := hframes bytes List.mem_cons_self
      exact outcomeOf_ne_assertion _ (List.length_take_le _ _) hwell

/-- A read takes a whole message of the queue, or nothing. -/
theorem MessageQueue.harmless (self : MessageQueue) (queue : List (List UInt8)) (fails : Bool) :
    readingEnd.Harmless self queue fails := by
  by_cases hopen : self.mqd = -1
  · refine ReadingEnd.harmless_of_error (e := .connectionClosed) (by decide) ?_
    simp only [readingEnd, read, if_pos hopen]
  rcases reportOf_cases queue fails with hreport | ⟨rfl, hreport⟩ | ⟨bytes, rest, rfl, hreport⟩
  · refine ReadingEnd.harmless_of_error (e := .readError) (by decide) ?_
    simp only [readingEnd, hreport, read, if_neg hopen]
  · refine ReadingEnd.harmless_of_idle ?_ (rfl : [] = [])
    simp only [readingEnd, hreport, read, if_neg hopen]
  · apply ReadingEnd.harmless_of_ne
    · simp only [readingEnd, hreport, read, if_neg hopen]
      exact outcomeOf_ne_noData _ _
    · intro hframes
      simp only [readingEnd, hreport, read, if_neg hopen]
      obtain ⟨hle, hwell⟩ := hframes bytes List.mem_cons_self
      exact outcomeOf_ne_assertion _ hle hwell

/-! ## Rings -/

/-- A message that has been copied out of its slot is decoded. -/
theorem slotOutcome_ne_assertion {buffer : Memory UInt8} {m : DataHeader × DataObject}
    (hm : IsMessage m) (h : Loaded buffer m) : slotOutcome buffer ≠ .error .assertion := by
  rw [slotOutcome_of_loaded hm h]
  rintro ⟨⟩

/-- A read that does not get the semaphore has done nothing. -/
theorem SharedMemory.harmless (self : RingHandler) (segment : Segment (Memory UInt8))
    (fate : Bool × Bool) : readingEnd.Harmless self segment fate := by
  obtain ⟨store, count, writer⟩ := segment
  obtain ⟨tryWait, postWriter⟩ := fate
  by_cases hopen : self.isOpen = true
  · cases tryWait with
    | false =>
        refine ReadingEnd.harmless_of_error (e := .readError) (by decide) ?_
        simp only [readingEnd, readWith, if_pos hopen, Bool.not_false, if_true]
    | true =>
        cases count with
        | zero =>
            refine ReadingEnd.harmless_of_idle ?_ rfl
            simp only [readingEnd, readWith, if_pos hopen, Bool.not_true, Bool.false_eq_true, if_false]
        | succ reader =>
            apply ReadingEnd.harmless_of_ne
            · simp only [readingEnd, readWith, if_pos hopen, Bool.not_true, Bool.false_eq_true, if_false]
              exact slotOutcome_ne_noData _
            · intro hframes
              obtain ⟨m, hm, hslot⟩ : ∃ m, calls.holds store self.offset m :=
                hframes (Nat.succ_pos reader)
              have hloaded := InSlot.loaded hslot hm.length_le self.buffer
              simp only [readingEnd, readWith, if_pos hopen, Bool.not_true, Bool.false_eq_true, if_false]
              exact slotOutcome_ne_assertion hm hloaded
  · refine ReadingEnd.harmless_of_error (e := .connectionClosed) (by decide) ?_
    simp only [readingEnd, readWith, if_neg hopen]

/-- A read that does not get the semaphore has done nothing; one whose file operations fail reports
another error. -/
theorem SharedFile.harmless (self : RingHandler) (segment : Segment FileContents) (fate : ReadFate) :
    readingEnd.Harmless self segment fate := by
  obtain ⟨store, count, writer⟩ := segment
  by_cases hopen : self.isOpen = true
  · by_cases hwait : (!fate.tryWait) = true
    · refine ReadingEnd.harmless_of_error (e := .readError) (by decide) ?_
      simp only [readingEnd, read, if_pos hopen, if_pos hwait]
    cases count with
    | zero =>
        refine ReadingEnd.harmless_of_idle ?_ rfl
        simp only [readingEnd, read, if_pos hopen, if_neg hwait]
    | succ reader =>
        by_cases hseekg : (!fate.seekg) = true
        · refine ReadingEnd.harmless_of_error (e := .readError) (by decide) ?_
          simp only [readingEnd, read, if_pos hopen, if_neg hwait, if_pos hseekg]
        by_cases hread : (!fate.read) = true
        · refine ReadingEnd.harmless_of_error (e := .readError) (by decide) ?_
          simp only [readingEnd, read, if_pos hopen, if_neg hwait, if_neg hseekg, if_pos hread]
        apply ReadingEnd.harmless_of_ne
        · simp only [readingEnd, read, if_pos hopen, if_neg hwait, if_neg hseekg, if_neg hread]
          exact slotOutcome_ne_noData _
        · intro hframes
          obtain ⟨m, hholds⟩ := hframes reader.succ_pos
          simp only [readingEnd, read, if_pos hopen, if_neg hwait, if_neg hseekg, if_neg hread]
          exact slotOutcome_ne_assertion hholds.1 (Holds.loaded hholds self.buffer)
  · refine ReadingEnd.harmless_of_error (e := .connectionClosed) (by decide) ?_
    simp only [readingEnd, read, if_neg hopen]

/-! ## Pipes -/

/-- When the body is asked for, the next segment has all of it, or nothing of it is needed, or the
read fails. -/
def BodyThere (size : ℕ) : List StreamEvent → Prop
  | .segment b bs :: _ => size ≤ (b :: bs).length
  | .fail :: _ => True
  | _ => size = 0

/-- The pipe does not end within a frame: when the header is asked for, there are no bytes or all of
its bytes, and then the body is there when it is asked for. -/
def FrameThere (stream : ByteStream) : Prop :=
  match stream.events with
  | .segment b bs :: events =>
      DataHeader.headerSize ≤ (b :: bs).length ∧
        BodyThere (DataHeader.ofImage ((b :: bs).take DataHeader.headerSize)).bodySize.toNat
          (StreamEvent.push ((b :: bs).drop DataHeader.headerSize) events)
  | _ => True

instance decidableBodyThere (size : ℕ) : (events : List StreamEvent) →
    Decidable (BodyThere size events)
  | .segment b bs :: _ => inferInstanceAs (Decidable (size ≤ (b :: bs).length))
  | .fail :: _ => inferInstanceAs (Decidable True)
  | .again :: _ => inferInstanceAs (Decidable (size = 0))
  | [] => inferInstanceAs (Decidable (size = 0))

namespace Fifo

/-- The body part is harmless exactly when the body is there: it has taken a header already. -/
theorem readBody_iff (header : DataHeader) (buffer : Memory UInt8) (stream : ByteStream) :
    ((readBody header buffer stream).outcome ≠ .ok (.error .noDataAvailable) ∧
      (readBody header buffer stream).outcome ≠ .error .assertion) ↔
    BodyThere header.bodySize.toNat stream.events := by
  obtain ⟨events, closed⟩ := stream
  simp only [readBody, deserializeDataObject_eq, pipeRead]
  -- a read of no bytes does not look at the pipe
  by_cases hzero : header.bodySize.toNat = 0
  · have hthere : BodyThere header.bodySize.toNat events := by
      rw [hzero]
      unfold BodyThere
      split
      · exact Nat.zero_le _
      · trivial
      · rfl
    simp only [hzero, List.length_nil, if_true]
    rw [hzero] at hthere
    refine iff_of_true ⟨?_, by rintro ⟨⟩⟩ hthere
    intro h
    exact readResult_ne_noData _ _ _ (Except.ok.inj h)
  · simp only [if_neg hzero]
    rcases events with _ | ⟨_ | _ | ⟨b, bs⟩, events⟩
    · -- nothing comes any more: `EAGAIN`, or fewer bytes than asked for
      cases closed with
      | false => exact iff_of_false (fun h => h.1 rfl) hzero
      | true =>
          simp only [ByteStream.recv, if_true, List.length_nil, if_neg (Ne.symm hzero)]
          exact iff_of_false (fun h => h.2 rfl) hzero
    · exact iff_of_false (fun h => h.1 rfl) hzero
    · exact iff_of_true ⟨by rintro ⟨⟩, by rintro ⟨⟩⟩ trivial
    · simp only [ByteStream.recv, BodyThere, List.length_take]
      by_cases hle : header.bodySize.toNat ≤ (b :: bs).length
      · rw [if_pos (Nat.min_eq_left hle)]
        refine iff_of_true ⟨?_, by rintro ⟨⟩⟩ hle
        intro h
        exact readResult_ne_noData _ _ _ (Except.ok.inj h)
      · have hshort : min header.bodySize.toNat (b :: bs).length ≠ header.bodySize.toNat := by
          omega
        rw [if_neg hshort]
        exact iff_of_false (fun h => h.2 rfl) hle

/-- What the body part leaves in the pipe is at most what was there. -/
theorem length_pending_readBody_le (header : DataHeader) (buffer : Memory UInt8)
    (stream : ByteStream) :
    (readBody header buffer stream).stream.pending.length ≤ stream.pending.length := by
  have hpipe : (pipeRead stream header.bodySize.toNat).2.pending.length ≤ stream.pending.length := by
    unfold pipeRead
    split_ifs with hzero
    · exact le_rfl
    · exact stream.length_pending_recv_le _
  simp only [readBody]
  rcases hread : pipeRead stream header.bodySize.toNat with ⟨_ | _ | bytes, next⟩
  · rwa [hread] at hpipe
  · rwa [hread] at hpipe
  · rw [hread] at hpipe
    dsimp only
    split_ifs
    · exact hpipe
    · exact hpipe

/-- Nothing is taken from an empty pipe. -/
theorem harmless_of_nil {self : Fifo} (hopen : self.fd ≠ -1) (closed : Bool) :
    readingEnd.Harmless self ⟨[], closed⟩ () := by
  have hheader : DataHeader.headerSize ≠ 0 := by decide
  -- without a writer, `read` returns no bytes, and writes none
  have hread : readingEnd.read self ⟨[], closed⟩ () =
      (.ok (.error .noDataAvailable), self, ⟨[], closed⟩) := by
    cases closed with
    | false =>
        simp only [readingEnd, read, if_neg hopen, pipeRead, if_neg hheader, ByteStream.recv,
          Bool.false_eq_true, if_false]
    | true =>
        simp only [readingEnd, read, if_neg hopen, pipeRead, if_neg hheader, ByteStream.recv, if_true,
          Memory.write_nil]
  exact ReadingEnd.harmless_of_idle hread ⟨.inl rfl, rfl⟩

/-- Nothing is taken when there are no bytes for the moment. -/
theorem harmless_of_again {self : Fifo} (hopen : self.fd ≠ -1) (events : List StreamEvent)
    (closed : Bool) : readingEnd.Harmless self ⟨.again :: events, closed⟩ () := by
  have hheader : DataHeader.headerSize ≠ 0 := by decide
  have hread : readingEnd.read self ⟨.again :: events, closed⟩ () =
      (.ok (.error .noDataAvailable), self, ⟨events, closed⟩) := by
    simp only [readingEnd, read, if_neg hopen, pipeRead, if_neg hheader, ByteStream.recv]
  exact ReadingEnd.harmless_of_idle hread ⟨.inr rfl, rfl⟩

/-- A failure is reported as one. -/
theorem harmless_of_fail {self : Fifo} (hopen : self.fd ≠ -1) (events : List StreamEvent)
    (closed : Bool) : readingEnd.Harmless self ⟨.fail :: events, closed⟩ () := by
  have hheader : DataHeader.headerSize ≠ 0 := by decide
  refine ReadingEnd.harmless_of_error (e := .readError) (by decide) ?_
  simp only [readingEnd, read, if_neg hopen, pipeRead, if_neg hheader, ByteStream.recv]

/-- With the header there, it is up to the body part, since the header is gone then. -/
theorem harmless_iff_of_header {self : Fifo} (hopen : self.fd ≠ -1) {b : UInt8} {bs : List UInt8}
    (events : List StreamEvent) (closed : Bool) (hlen : DataHeader.headerSize ≤ (b :: bs).length) :
    readingEnd.Harmless self ⟨.segment b bs :: events, closed⟩ () ↔
      FrameThere ⟨.segment b bs :: events, closed⟩ := by
  simp only [ReadingEnd.Harmless, readingEnd, read_of_segment hopen events closed hlen,
    ReadCall.after]
  set header := DataHeader.ofImage ((b :: bs).take DataHeader.headerSize)
  set rest : ByteStream := ⟨StreamEvent.push ((b :: bs).drop DataHeader.headerSize) events, closed⟩
    with hrest
  set buffer := self.buffer.write 0 ((b :: bs).take DataHeader.headerSize)
  have hshorter : rest.pending.length <
      (ByteStream.pending ⟨.segment b bs :: events, closed⟩).length := by
    simp only [hrest, ByteStream.pending, StreamEvent.carried_push, StreamEvent.carried_cons,
      StreamEvent.bytes, List.length_append, List.length_drop]
    have hpos : 0 < DataHeader.headerSize := by decide
    omega
  have hthere : FrameThere ⟨.segment b bs :: events, closed⟩ ↔
      BodyThere header.bodySize.toNat rest.events := by
    simp only [FrameThere, hlen, true_and]
    rfl
  rw [hthere, ← readBody_iff header buffer rest]
  constructor
  · rintro ⟨hdata, hassert⟩
    refine ⟨?_, hassert trivial⟩
    intro h
    -- the header is gone, so the channel has not been idle
    have hidle := (hdata _ _ (by rw [h])).2.pending_eq
    have hle := length_pending_readBody_le header buffer rest
    rw [hidle] at hle
    omega
  · rintro ⟨hdata, hassert⟩
    refine ⟨?_, fun _ => hassert⟩
    intro self' channel' h
    rw [Prod.mk.injEq] at h
    exact absurd h.1 hdata

/-- A part of a header fails the assertion. -/
theorem not_harmless_of_short {self : Fifo} (hopen : self.fd ≠ -1) {b : UInt8} {bs : List UInt8}
    (events : List StreamEvent) (closed : Bool) (hlen : ¬ DataHeader.headerSize ≤ (b :: bs).length) :
    ¬ readingEnd.Harmless self ⟨.segment b bs :: events, closed⟩ () := by
  have hheader : DataHeader.headerSize ≠ 0 := by decide
  have htake : (b :: bs).take DataHeader.headerSize = b :: bs := List.take_of_length_le (by omega)
  have hne : b :: bs ≠ [] := List.cons_ne_nil b bs
  have hlen' : (b :: bs).length ≠ DataHeader.headerSize := by omega
  have hfault : (self.read ⟨.segment b bs :: events, closed⟩).outcome = .error .assertion := by
    simp only [read, if_neg hopen, pipeRead, if_neg hheader, ByteStream.recv, htake, if_neg hne,
      if_neg hlen']
  rintro ⟨-, hassert⟩
  exact hassert trivial hfault

/-- A read has taken the header before it asks for the body, so it is harmless exactly when the pipe
does not end within a frame. -/
theorem harmless_iff_frameThere (self : Fifo) (stream : ByteStream) :
    readingEnd.Harmless self stream () ↔ self.fd = -1 ∨ FrameThere stream := by
  by_cases hopen : self.fd = -1
  · refine iff_of_true (ReadingEnd.harmless_of_error (e := .connectionClosed) (by decide) ?_) (.inl hopen)
    simp only [readingEnd, read, if_pos hopen]
  rw [or_iff_right hopen]
  obtain ⟨events, closed⟩ := stream
  rcases events with _ | ⟨_ | _ | ⟨b, bs⟩, events⟩
  · exact iff_of_true (harmless_of_nil hopen closed) trivial
  · exact iff_of_true (harmless_of_again hopen events closed) trivial
  · exact iff_of_true (harmless_of_fail hopen events closed) trivial
  · by_cases hlen : DataHeader.headerSize ≤ (b :: bs).length
    · exact harmless_iff_of_header hopen events closed hlen
    · exact iff_of_false (not_harmless_of_short hopen events closed hlen) fun h => hlen h.1

end Fifo

/-! ## The six classes -/

/-- The handler classes that poll something of the kernel's. -/
inductive ReaderClass
  | streamSocket
  | datagramSocket
  | fifo
  | messageQueue
  | sharedMemory
  | sharedFile

namespace ReaderClass

/-- The reading end of a class. -/
def readingEnd : ReaderClass → ReadingEnd
  | streamSocket => StreamSocket.readingEnd
  | datagramSocket => DatagramSocket.readingEnd
  | fifo => Fifo.readingEnd
  | messageQueue => MessageQueue.readingEnd
  | sharedMemory => SharedMemory.readingEnd
  | sharedFile => SharedFile.readingEnd

/-- What a class needs of what it reads from: a pipe must not end within a frame. -/
def Arrived : (c : ReaderClass) → c.readingEnd.Handler → c.readingEnd.Channel → Prop
  | fifo, self, stream => Fifo.fd self = -1 ∨ FrameThere stream
  | _, _, _ => True

/-- **When no data means that nothing has happened**: for five classes always, and for pipes exactly
when the pipe does not end within a frame. -/
theorem harmless_iff (c : ReaderClass) (self : c.readingEnd.Handler)
    (channel : c.readingEnd.Channel) (fate : c.readingEnd.Fate) :
    c.readingEnd.Harmless self channel fate ↔ c.Arrived self channel := by
  cases c with
  | streamSocket => exact iff_of_true (StreamSocket.harmless self channel) trivial
  | datagramSocket => exact iff_of_true (DatagramSocket.harmless self channel fate) trivial
  | fifo => exact Fifo.harmless_iff_frameThere self channel
  | messageQueue => exact iff_of_true (MessageQueue.harmless self channel fate) trivial
  | sharedMemory => exact iff_of_true (SharedMemory.harmless self channel fate) trivial
  | sharedFile => exact iff_of_true (SharedFile.harmless self channel fate) trivial

/-- The header of a message whose body of four bytes has not arrived yet: it is lost. -/
theorem not_harmless_header :
    ¬ ∀ (c : ReaderClass) (self : c.readingEnd.Handler) (channel : c.readingEnd.Channel)
      (fate : c.readingEnd.Fate), c.readingEnd.Harmless self channel fate := by
  intro h
  let header : DataHeader := ⟨1, .binaryData, 4, 7⟩
  have hharmless := h fifo ⟨3, 0, fun _ => 0⟩ ⟨StreamEvent.push header.image [], false⟩ ()
  rcases (Fifo.harmless_iff_frameThere _ _).mp hharmless with hfd | hthere
  · cases hfd
  · exact absurd hthere.2 (by decide +kernel)

end ReaderClass

end IpcPerformance
