import IpcPerformance.Handler.Agreement

/-! # Many writers on one pipe

Any number of `Fifo` handlers write to the same pipe, and one reads it. A write is one step, since all
it shares is its single `::write`; a read is two, since other processes may write between its header
part and its body part.

* `Fifo.read_eq_parts` — the two parts are what `Fifo::read` is made of.
* `FifoSystem.Inv` — the pipe starts at a frame, or at the body of the header in hand.
* `FifoSystem.reads_of_run` — in every run both asserts hold, every header taken is returned with its
  body, and what is read is what was committed, in that order. -/

namespace IpcPerformance

/-! ## The two parts of a read -/

/-- How the header part of `Fifo::read` ends: the call returns, or goes on with the body. -/
inductive HeaderPart
  | returned (outcome : Except Fault ReadResult)
  | goesOn (header : DataHeader)

/-- The header part of `Fifo::read`: how it ends, `buffer_`, and what is left of the pipe. -/
def Fifo.readHeader (fifo : Fifo) (stream : ByteStream) :
    HeaderPart × Memory UInt8 × ByteStream :=
  if fifo.fd = -1 then (.returned (.ok (.error .connectionClosed)), fifo.buffer, stream)
  else
    match pipeRead stream DataHeader.headerSize with
    | (.again, next) => (.returned (.ok (.error .noDataAvailable)), fifo.buffer, next)
    | (.error, next) => (.returned (.ok (.error .readError)), fifo.buffer, next)
    | (.bytes bytes, next) =>
        let buffer := fifo.buffer.write 0 bytes
        if bytes = [] then (.returned (.ok (.error .noDataAvailable)), buffer, next)
        -- `assert(header_size == result)`
        else if bytes.length = DataHeader.headerSize then
          match DataHeader.deserialize buffer 0 DataHeader.headerSize with
          | none => (.returned (.ok (.error .invalidHeader)), buffer, next)
          | some header => (.goesOn header, buffer, next)
        else (.returned (.error .assertion), buffer, next)

/-- `Fifo::read` is its header part, followed by the body part when there is a header. -/
theorem Fifo.read_eq_parts (fifo : Fifo) (stream : ByteStream) :
    ((fifo.read stream).outcome, (fifo.read stream).buffer, (fifo.read stream).stream) =
      match fifo.readHeader stream with
      | (.returned outcome, buffer, next) => (outcome, buffer, next)
      | (.goesOn header, buffer, next) =>
          ((readBody header buffer next).outcome, (readBody header buffer next).buffer,
            (readBody header buffer next).stream) := by
  unfold read readHeader
  by_cases hopen : fifo.fd = -1
  · rw [if_pos hopen, if_pos hopen]
  · rw [if_neg hopen, if_neg hopen]
    rcases pipeRead stream DataHeader.headerSize with ⟨_ | _ | bytes, next⟩
    · rfl
    · rfl
    · by_cases hnil : bytes = []
      · simp only [if_pos hnil]
      · by_cases hlen : bytes.length = DataHeader.headerSize
        · simp only [if_neg hnil, if_pos hlen]
          cases DataHeader.deserialize (fifo.buffer.write 0 bytes) 0 DataHeader.headerSize <;> rfl
        · simp only [if_neg hnil, if_neg hlen]

/-! ## The system -/

/-- `PIPE_BUF`: the kernel does not cut or mix writes of at most that many bytes. -/
def pipeBuf : ℕ := 4096

/-- What becomes of a write to a pipe: one of at most `PIPE_BUF` bytes fails or is accepted whole. -/
def SendOutcome.onPipe (offered : ℕ) : SendOutcome → SendOutcome
  | fail => fail
  | accept atMost => if offered ≤ pipeBuf then accept offered else accept atMost

/-- The bytes in a pipe, for its reader: what is asked for as far as there are bytes, `EAGAIN` when
there are none. -/
def pipeOf (bytes : List UInt8) : ByteStream := ⟨StreamEvent.push bytes [], false⟩

/-- Writers, the reader, and the pipe between them. -/
structure FifoSystem (W : Type*) where
  /-- The handlers that write. -/
  writers : W → Fifo
  /-- The handler that reads. -/
  reader : Fifo
  /-- The header the reader has taken, between the two parts of a call. -/
  header : Option DataHeader
  /-- The bytes in the pipe. -/
  pipe : List UInt8
  /-- The messages written so far, in the order of the writes. -/
  commits : List (W × DataHeader × DataObject)
  /-- The reads so far: the header that was taken from the pipe, if any, and how the call ended. -/
  calls : List (Option DataHeader × Except Fault ReadResult)

/-- What can happen next. -/
inductive FifoStep (W : Type*)
  /-- A writer calls `write`. -/
  | write (w : W) (o : DataObject) (timestamp : Int64) (send : SendOutcome)
  /-- The reader executes the header part of `read`. -/
  | readHeader
  /-- The reader executes the body part of `read`. -/
  | readBody

namespace FifoSystem

variable {W : Type*} [DecidableEq W]

/-- One step; the reader has one call at a time. -/
def step (s : FifoSystem W) : FifoStep W → Option (FifoSystem W)
  | .write w o timestamp send =>
      let fifo := s.writers w
      let call := fifo.write o timestamp (send.onPipe (DataHeader.headerSize + o.bodySize))
      some { s with
        writers :=
          Function.update s.writers w { fifo with buffer := call.buffer, lastId := call.lastId }
        pipe := s.pipe ++ call.sent
        commits :=
          if call.result then s.commits ++ [(w, Channel.message call.lastId o timestamp)]
          else s.commits }
  | .readHeader =>
      match s.header with
      | some _ => none
      | none =>
          match s.reader.readHeader (pipeOf s.pipe) with
          | (.returned outcome, buffer, next) =>
              some { s with
                reader := { s.reader with buffer }
                pipe := next.pending
                calls := s.calls ++ [(none, outcome)] }
          | (.goesOn header, buffer, next) =>
              some { s with
                reader := { s.reader with buffer }
                header := some header
                pipe := next.pending }
  | .readBody =>
      match s.header with
      | none => none
      | some header =>
          let call := Fifo.readBody header s.reader.buffer (pipeOf s.pipe)
          some { s with
            reader := { s.reader with buffer := call.buffer }
            header := none
            pipe := call.stream.pending
            calls := s.calls ++ [(some header, call.outcome)] }

/-- All handlers are open, and nothing has happened yet. -/
structure Start (s : FifoSystem W) : Prop where
  writers : ∀ w, (s.writers w).fd ≠ -1
  reader : s.reader.fd ≠ -1
  header : s.header = none
  pipe : s.pipe = []
  commits : s.commits = []
  calls : s.calls = []

/-- The message a call has returned. -/
def messageOf (c : Option DataHeader × Except Fault ReadResult) : Option (DataHeader × DataObject) :=
  match c.2 with
  | .ok (.ok m) => some m
  | _ => none

/-- The messages the reader has returned. -/
def messagesRead (s : FifoSystem W) : List (DataHeader × DataObject) := s.calls.filterMap messageOf

/-- The messages of one writer. -/
def ofWriter (w : W) (commits : List (W × DataHeader × DataObject)) :
    List (DataHeader × DataObject) :=
  (commits.filter fun c => c.1 = w).map fun c => c.2

/-- The messages a writer puts into the pipe in a run, given the id of its last one: the objects it
writes that fit, numbered, without those whose `::write` failed. -/
def sentBy (w : W) : UInt32 → List (FifoStep W) → List (DataHeader × DataObject)
  | _, [] => []
  | lastId, .write v o timestamp send :: steps =>
      if v = w ∧ o.Fits then
        (if send = .fail then [] else [Channel.message (lastId + 1) o timestamp]) ++
          sentBy w (lastId + 1) steps
      else sentBy w lastId steps
  | lastId, .readHeader :: steps => sentBy w lastId steps
  | lastId, .readBody :: steps => sentBy w lastId steps

/-- A call that found nothing and took nothing, or that returned a message with the header it took. -/
def SoundCall (c : Option DataHeader × Except Fault ReadResult) : Prop :=
  c = (none, .ok (.error .noDataAvailable)) ∨ ∃ m, c = (some m.1, .ok (.ok m))

/-- What holds after the steps of a run from `s` to `t`. -/
structure Safe (s t : FifoSystem W) (steps : List (FifoStep W)) : Prop where
  /-- No call fails an assert, or discards a header. -/
  calls : ∀ c ∈ t.calls, SoundCall c
  /-- The messages read are the first ones committed, in that order. -/
  isPrefix : t.messagesRead <+: t.commits.map fun c => c.2
  /-- When the pipe is empty, all of them have been read. -/
  drained : t.header = none → t.pipe = [] → t.messagesRead = t.commits.map fun c => c.2
  /-- As long as it is not, the next call takes a header. -/
  progress : t.header = none → t.pipe ≠ [] → ∃ u, t.step .readHeader = some u ∧ u.header ≠ none
  /-- Each writer has committed what it wrote, in its order. -/
  ofWriter : ∀ w, ofWriter w t.commits = sentBy w (s.writers w).lastId steps
  /-- What has been read of a writer is the beginning of that. -/
  readOfWriter : ∀ w, FifoSystem.ofWriter w (t.commits.take t.messagesRead.length) <+:
    sentBy w (s.writers w).lastId steps

/-! ## What a step does -/

/-- A message keeps to `PIPE_BUF`, so the kernel does not cut it. -/
theorem fits_le_pipeBuf {o : DataObject} (h : o.Fits) :
    DataHeader.headerSize + o.bodySize ≤ pipeBuf :=
  h.trans (by decide)

/-- **What a write can do**: it puts a whole message into the pipe, or nothing; only the writer
itself changes otherwise. -/
theorem write_cases {s t : FifoSystem W} {w : W} {o : DataObject} {timestamp : Int64}
    {send : SendOutcome} (hopen : (s.writers w).fd ≠ -1)
    (hstep : s.step (.write w o timestamp send) = some t) :
    ∃ fifo : Fifo, fifo.fd = (s.writers w).fd ∧
      ((o.Fits ∧ send ≠ .fail ∧ fifo.lastId = (s.writers w).lastId + 1 ∧
          t = { s with
            writers := Function.update s.writers w fifo
            pipe := s.pipe ++ imageOf (Channel.message fifo.lastId o timestamp)
            commits := s.commits ++ [(w, Channel.message fifo.lastId o timestamp)] }) ∨
        (o.Fits ∧ send = .fail ∧ fifo.lastId = (s.writers w).lastId + 1 ∧
          t = { s with writers := Function.update s.writers w fifo }) ∨
        (¬ o.Fits ∧ fifo.lastId = (s.writers w).lastId ∧
          t = { s with writers := Function.update s.writers w fifo })) := by
  simp only [step, Option.some.injEq] at hstep
  by_cases hfits : o.Fits
  · obtain ⟨buffer, hwrite⟩ := bufferedWrite_of_le (s.writers w).buffer (s.writers w).lastId o timestamp
      (send.onPipe (DataHeader.headerSize + o.bodySize)) hfits
    refine ⟨{ s.writers w with buffer, lastId := (s.writers w).lastId + 1 }, rfl, ?_⟩
    rw [Fifo.write, decide_eq_true hopen, hwrite] at hstep
    cases send with
    | fail =>
        refine .inr (.inl ⟨hfits, rfl, rfl, ?_⟩)
        rw [← hstep]
        simp [SendOutcome.onPipe, SendOutcome.accepted]
    | accept atMost =>
        refine .inl ⟨hfits, by rintro ⟨⟩, rfl, ?_⟩
        -- the message keeps to the limit of the kernel, so all of it is accepted
        have hsend : SendOutcome.onPipe (DataHeader.headerSize + o.bodySize) (.accept atMost) =
            .accept (DataHeader.headerSize + o.bodySize) := if_pos (fits_le_pipeBuf hfits)
        have hall : SendOutcome.accepted (DataHeader.headerSize + o.bodySize)
            (.accept (DataHeader.headerSize + o.bodySize)) =
              (messageImage (outgoingHeader ((s.writers w).lastId + 1) o o.bodySize timestamp)
                o).length := by
          rw [length_messageImage]
          exact min_eq_right (Nat.le_succ _)
        rw [← hstep, hsend, hall, List.take_length]
        rfl
  · have hwrite := bufferedWrite_of_lt (s.writers w).buffer (s.writers w).lastId o timestamp
      (send.onPipe (DataHeader.headerSize + o.bodySize)) hfits
    refine ⟨s.writers w, rfl, .inr (.inr ⟨hfits, rfl, ?_⟩)⟩
    rw [Fifo.write, decide_eq_true hopen, hwrite] at hstep
    rw [← hstep]
    simp

/-- A header part that finds a message takes its header. -/
theorem readHeader_pipeOf {reader : Fifo} (hopen : reader.fd ≠ -1) (m : DataHeader × DataObject)
    (rest : List UInt8) :
    ∃ buffer, reader.readHeader (pipeOf (imageOf m ++ rest)) =
      (.goesOn m.1, buffer, pipeOf (m.2.image ++ rest)) := by
  refine ⟨reader.buffer.write 0 m.1.image, ?_⟩
  obtain ⟨b, bs, hcons⟩ := List.exists_cons_of_ne_nil (imageOf_append_ne_nil m rest)
  have hread : pipeRead (pipeOf (imageOf m ++ rest)) DataHeader.headerSize =
      (.bytes m.1.image, pipeOf (m.2.image ++ rest)) := by
    rw [pipeRead, if_neg (by decide), pipeOf, hcons, StreamEvent.push, ByteStream.recv]
    simp only [← hcons, take_imageOf_append, drop_imageOf_append]
    rfl
  have hne : m.1.image ≠ [] := by
    intro h
    have hlen := m.1.length_image
    rw [h] at hlen
    cases hlen
  have hheader : (reader.buffer.write 0 m.1.image).read 0 DataHeader.headerSize = m.1.image := by
    rw [Memory.read_write_take _ _ _ _ m.1.length_image.ge, ← m.1.length_image, List.take_length]
  simp only [Fifo.readHeader, if_neg hopen, hread, if_neg hne, if_pos m.1.length_image,
    DataHeader.deserialize_headerSize, hheader, DataHeader.ofImage_image]

/-- A header part that finds nothing takes nothing. -/
theorem readHeader_nil {reader : Fifo} (hopen : reader.fd ≠ -1) :
    reader.readHeader (pipeOf []) =
      (.returned (.ok (.error .noDataAvailable)), reader.buffer, pipeOf []) := by
  rw [Fifo.readHeader, if_neg hopen]
  rfl

/-- The header part leaves the writers and what they have committed alone. -/
theorem frame_readHeader {s t : FifoSystem W} (hstep : s.step .readHeader = some t) :
    t.commits = s.commits ∧ t.writers = s.writers := by
  cases hheader : s.header with
  | some header =>
      rw [step, hheader] at hstep
      cases hstep
  | none =>
      simp only [step, hheader] at hstep
      split at hstep <;> (cases hstep; exact ⟨rfl, rfl⟩)

/-- So does the body part. -/
theorem frame_readBody {s t : FifoSystem W} (hstep : s.step .readBody = some t) :
    t.commits = s.commits ∧ t.writers = s.writers := by
  cases hheader : s.header with
  | none =>
      rw [step, hheader] at hstep
      cases hstep
  | some header =>
      simp only [step, hheader, Option.some.injEq] at hstep
      subst hstep
      exact ⟨rfl, rfl⟩

/-! ## The invariant -/

/-- The bytes in front of the next frame: the body of the message whose header has been taken. -/
def bodyInHand (inHand : Option (DataHeader × DataObject)) : List UInt8 :=
  inHand.elim [] fun m => m.2.image

/-- The reader has the header of the message `inHand`, and behind its body the pipe has the messages
of a queue: what is left of the commits. -/
structure Carries (s : FifoSystem W) (inHand : Option (DataHeader × DataObject))
    (queue : List (DataHeader × DataObject)) : Prop where
  header : s.header = inHand.map fun m => m.1
  pipe : s.pipe = bodyInHand inHand ++ streamBytes queue
  messages : AllMessages (inHand.toList ++ queue)
  commits : s.commits.map (fun c => c.2) = s.messagesRead ++ (inHand.toList ++ queue)

/-- The invariant: open handlers, sound calls, and a pipe that starts at a frame or at the body of
the header in hand. -/
structure Inv (s : FifoSystem W) : Prop where
  writers : ∀ w, (s.writers w).fd ≠ -1
  reader : s.reader.fd ≠ -1
  calls : ∀ c ∈ s.calls, SoundCall c
  carries : ∃ inHand queue, s.Carries inHand queue

omit [DecidableEq W] in
theorem inv_of_start {s : FifoSystem W} (h : s.Start) : s.Inv := by
  refine ⟨h.writers, h.reader, ?_, none, [], h.header, h.pipe, allMessages_nil, ?_⟩
  · intro c hc
    rw [h.calls] at hc
    cases hc
  · rw [messagesRead, h.calls, h.commits]
    rfl

/-- Writers stay open. -/
theorem update_open {s : FifoSystem W} (h : ∀ w, (s.writers w).fd ≠ -1) {w : W} {fifo : Fifo}
    (hfd : fifo.fd = (s.writers w).fd) (v : W) : (Function.update s.writers w fifo v).fd ≠ -1 := by
  by_cases hv : v = w
  · subst hv
    rw [Function.update_self, hfd]
    exact h v
  · rw [Function.update_of_ne hv]
    exact h v

/-- A write appends a whole message, at a frame boundary. -/
theorem Inv.write {s t : FifoSystem W} (h : s.Inv) {w : W} {o : DataObject} {timestamp : Int64}
    {send : SendOutcome} (hstep : s.step (.write w o timestamp send) = some t) : t.Inv := by
  obtain ⟨inHand, queue, hcarries⟩ := h.carries
  obtain ⟨fifo, hfd, ⟨hfits, -, -, rfl⟩ | ⟨-, -, -, rfl⟩ | ⟨-, -, rfl⟩⟩ := write_cases (h.writers w) hstep
  · refine ⟨update_open h.writers hfd, h.reader, h.calls, inHand,
      queue ++ [Channel.message fifo.lastId o timestamp], hcarries.header, ?_, ?_, ?_⟩
    · change s.pipe ++ _ = _
      rw [hcarries.pipe, streamBytes, streamBytes, List.flatMap_append, List.flatMap_singleton,
        List.append_assoc]
    · rw [← List.append_assoc]
      exact hcarries.messages.concat fifo.lastId hfits timestamp
    · change (s.commits ++ _).map _ = s.messagesRead ++ _
      rw [List.map_append, hcarries.commits, List.map_singleton, List.append_assoc, List.append_assoc]
  · exact ⟨update_open h.writers hfd, h.reader, h.calls, inHand, queue, hcarries.header, hcarries.pipe,
      hcarries.messages, hcarries.commits⟩
  · exact ⟨update_open h.writers hfd, h.reader, h.calls, inHand, queue, hcarries.header, hcarries.pipe,
      hcarries.messages, hcarries.commits⟩

/-- A header part takes the header of the next message, or finds nothing and takes nothing. -/
theorem Inv.readHeader {s t : FifoSystem W} (h : s.Inv) (hstep : s.step .readHeader = some t) :
    t.Inv := by
  obtain ⟨inHand, queue, hcarries⟩ := h.carries
  cases inHand with
  | some m =>
      -- the reader is in the middle of a call
      rw [step, hcarries.header] at hstep
      cases hstep
  | none =>
      rw [step, hcarries.header, hcarries.pipe] at hstep
      cases queue with
      | nil =>
          simp only [bodyInHand, Option.elim_none, streamBytes, List.flatMap_nil, List.append_nil,
            readHeader_nil h.reader, Option.map_none, Option.some.injEq] at hstep
          subst hstep
          refine ⟨h.writers, h.reader, ?_, none, [], rfl, rfl, allMessages_nil, ?_⟩
          · simp only [List.forall_mem_append, List.forall_mem_singleton]
            exact ⟨h.calls, .inl rfl⟩
          · change s.commits.map _ = (s.calls ++ [_]).filterMap messageOf ++ []
            rw [hcarries.commits, List.filterMap_append]
            simp [messageOf, messagesRead]
      | cons m queue =>
          obtain ⟨buffer, hread⟩ := readHeader_pipeOf h.reader m (streamBytes queue)
          simp only [bodyInHand, Option.elim_none, List.nil_append, streamBytes, List.flatMap_cons,
            Option.map_none] at hstep
          simp only [streamBytes] at hread
          simp only [hread, Option.some.injEq] at hstep
          subst hstep
          refine ⟨h.writers, h.reader, h.calls, some m, queue, rfl, ?_, hcarries.messages,
            hcarries.commits⟩
          exact pending_push _ false

/-- A body part returns the message whose header is in hand. -/
theorem Inv.readBody {s t : FifoSystem W} (h : s.Inv) (hstep : s.step .readBody = some t) :
    t.Inv := by
  obtain ⟨inHand, queue, hcarries⟩ := h.carries
  cases inHand with
  | none =>
      rw [step, hcarries.header] at hstep
      cases hstep
  | some m =>
      obtain ⟨hm, hall⟩ := List.forall_mem_cons.mp hcarries.messages
      obtain ⟨buffer, next, calls, hbody, hnext⟩ :=
        Fifo.readBody_of_push s.reader.buffer (streamBytes queue) hm.toNat_bodySize
      rw [step, hcarries.header, hcarries.pipe] at hstep
      simp only [Option.map_some, bodyInHand, Option.elim_some, pipeOf, hbody, hnext,
        hm.readResult_eq, Option.some.injEq] at hstep
      subst hstep
      refine ⟨h.writers, h.reader, ?_, none, queue, rfl, rfl, hall, ?_⟩
      · simp only [List.forall_mem_append, List.forall_mem_singleton]
        exact ⟨h.calls, .inr ⟨m, rfl⟩⟩
      · change s.commits.map _ = (s.calls ++ [_]).filterMap messageOf ++ _
        rw [hcarries.commits, List.filterMap_append]
        simp [messageOf, messagesRead]

/-- Every step preserves the invariant. -/
theorem Inv.step {s t : FifoSystem W} {i : FifoStep W} (h : s.Inv) (hstep : s.step i = some t) :
    t.Inv := by
  cases i with
  | write w o timestamp send => exact h.write hstep
  | readHeader => exact h.readHeader hstep
  | readBody => exact h.readBody hstep

/-- The invariant holds after every run. -/
theorem inv_of_run {s t : FifoSystem W} {steps : List (FifoStep W)} (h : s.Start)
    (hrun : runAll step s steps = some t) : t.Inv :=
  runAll_invariant (P := fun _ _ => True) (fun _ _ _ hinv _ hstep => hinv.step hstep)
    (inv_of_start h) (along_of_forall (fun _ _ => trivial) s) hrun

/-! ## What each writer has committed -/

/-- A commit is one of the writer that made it. -/
theorem ofWriter_concat (w v : W) (commits : List (W × DataHeader × DataObject))
    (m : DataHeader × DataObject) :
    ofWriter w (commits ++ [(v, m)]) = ofWriter w commits ++ if v = w then [m] else [] := by
  unfold ofWriter
  by_cases hv : v = w
  · simp [hv]
  · simp [hv]

/-- Only the writer that writes changes its last id. -/
theorem lastId_update (s : FifoSystem W) (w v : W) (fifo : Fifo) :
    (Function.update s.writers v fifo w).lastId =
      if v = w then fifo.lastId else (s.writers w).lastId := by
  by_cases hv : v = w
  · subst hv
    rw [Function.update_self, if_pos rfl]
  · rw [Function.update_of_ne (Ne.symm hv), if_neg hv]

/-- A step commits what its writer sends with it, and nothing else. -/
theorem ofWriter_step (w : W) {s t : FifoSystem W} {i : FifoStep W} (h : s.Inv)
    (hstep : s.step i = some t) (steps : List (FifoStep W)) :
    ofWriter w t.commits ++ sentBy w (t.writers w).lastId steps =
      ofWriter w s.commits ++ sentBy w (s.writers w).lastId (i :: steps) := by
  cases i with
  | write v o timestamp send =>
      obtain ⟨fifo, -, ⟨hfits, hsend, hid, rfl⟩ | ⟨hfits, rfl, hid, rfl⟩ | ⟨hfits, hid, rfl⟩⟩ :=
        write_cases (h.writers v) hstep
      · simp only [lastId_update, ofWriter_concat, sentBy]
        by_cases hv : v = w
        · subst hv
          simp only [if_true, true_and, if_pos hfits, if_neg hsend, hid, List.append_assoc]
        · simp only [List.append_nil, hv, false_and, if_false]
      · simp only [lastId_update, sentBy]
        by_cases hv : v = w
        · subst hv
          simp only [if_true, true_and, if_pos hfits, hid, List.nil_append]
        · simp only [hv, false_and, if_false]
      · simp only [lastId_update, sentBy, if_neg fun h : v = w ∧ o.Fits => hfits h.2]
        by_cases hv : v = w
        · subst hv
          simp only [if_true, hid]
        · simp only [if_neg hv]
  -- the reader commits nothing
  | readHeader =>
      obtain ⟨hcommits, hwriters⟩ := frame_readHeader hstep
      rw [hcommits, hwriters, sentBy]
  | readBody =>
      obtain ⟨hcommits, hwriters⟩ := frame_readBody hstep
      rw [hcommits, hwriters, sentBy]

/-- The commits of a writer in a run are what it sends. -/
theorem ofWriter_of_run (w : W) {s t : FifoSystem W} {steps : List (FifoStep W)} (h : s.Inv)
    (hrun : runAll step s steps = some t) :
    ofWriter w t.commits = ofWriter w s.commits ++ sentBy w (s.writers w).lastId steps := by
  induction steps generalizing s with
  | nil =>
      cases hrun
      exact (List.append_nil _).symm
  | cons i steps ih =>
      obtain ⟨s', hstep, hrun⟩ := runAll_cons_eq_some.mp hrun
      rw [ih (h.step hstep) hrun, ofWriter_step w h hstep]

/-! ## Runs -/

/-- With bytes in the pipe and no header in hand, the next header part takes one. -/
theorem Inv.progress {t : FifoSystem W} (h : t.Inv) (hheader : t.header = none)
    (hpipe : t.pipe ≠ []) : ∃ u, t.step .readHeader = some u ∧ u.header ≠ none := by
  obtain ⟨inHand, queue, hcarries⟩ := h.carries
  have hnone : inHand = none := by
    rw [hcarries.header] at hheader
    exact Option.map_eq_none_iff.mp hheader
  subst hnone
  cases queue with
  | nil => exact absurd hcarries.pipe hpipe
  | cons m queue =>
      obtain ⟨buffer, hread⟩ := readHeader_pipeOf h.reader m (streamBytes queue)
      have hbytes : t.pipe = imageOf m ++ streamBytes queue := hcarries.pipe
      simp only [FifoSystem.step, hheader, hbytes, hread]
      exact ⟨_, rfl, by rintro ⟨⟩⟩

omit [DecidableEq W] in
/-- An empty pipe and no header in hand: nothing is left to read. -/
theorem Inv.drained {t : FifoSystem W} (h : t.Inv) (hheader : t.header = none)
    (hpipe : t.pipe = []) : t.messagesRead = t.commits.map fun c => c.2 := by
  obtain ⟨inHand, queue, hcarries⟩ := h.carries
  have hnone : inHand = none := by
    rw [hcarries.header] at hheader
    exact Option.map_eq_none_iff.mp hheader
  subst hnone
  cases queue with
  | nil => rw [hcarries.commits, Option.toList_none, List.append_nil, List.append_nil]
  | cons m queue =>
      -- a frame in the pipe has at least the bytes of its header
      have hbytes : t.pipe = imageOf m ++ streamBytes queue := hcarries.pipe
      rw [hpipe] at hbytes
      exact absurd hbytes.symm (imageOf_append_ne_nil m _)

/-- **Many writers on one pipe.** However the writes of any number of writers and the two parts of
the reads are interleaved, no assert fails, every header taken is returned with its body, and what is
read is what was committed, in that order, for all writers together and for each one. -/
theorem reads_of_run {s t : FifoSystem W} {steps : List (FifoStep W)} (h : s.Start)
    (hrun : runAll step s steps = some t) : Safe s t steps := by
  have hinv : t.Inv := inv_of_run h hrun
  obtain ⟨inHand, queue, hcarries⟩ := hinv.carries
  have hwriter : ∀ w, ofWriter w t.commits = sentBy w (s.writers w).lastId steps := by
    intro w
    rw [ofWriter_of_run w (inv_of_start h) hrun, h.commits]
    rfl
  refine ⟨hinv.calls, ?_, hinv.drained, hinv.progress, hwriter, ?_⟩
  · rw [hcarries.commits]
    exact List.prefix_append _ _
  · intro w
    rw [← hwriter w]
    exact ((List.take_prefix _ _).filter _).map _

/-- Two writers and the reader, all just opened. -/
def twoWriters : FifoSystem Bool :=
  ⟨fun _ => ⟨3, 0, fun _ => 0⟩, ⟨4, 0, fun _ => 0⟩, none, [], [], []⟩

/-- Both write a ping, the second one while the reader has the header of the first. -/
def twoPings : List (FifoStep Bool) :=
  [.readHeader, .write true .ping 7 (.accept 15), .readHeader, .write false .ping 8 (.accept 15),
    .readBody, .readHeader, .readBody]

/-- The two pings are read in the order of the writes. -/
theorem reads_of_run_twoPings : ∃ t, runAll step twoWriters twoPings = some t ∧
    t.messagesRead = [Channel.message 1 .ping 7, Channel.message 1 .ping 8] ∧
    Safe twoWriters t twoPings := by
  have hsome : (runAll step twoWriters twoPings).map messagesRead =
      some [Channel.message 1 .ping 7, Channel.message 1 .ping 8] := by decide +kernel
  obtain ⟨t, hrun, hread⟩ := Option.map_eq_some_iff.mp hsome
  have hstart : twoWriters.Start := by
    refine ⟨fun _ => ?_, ?_, rfl, rfl, rfl, rfl⟩
    · change (3 : ℤ) ≠ -1
      decide
    · change (4 : ℤ) ≠ -1
      decide
  exact ⟨t, hrun, hread, reads_of_run hstart hrun⟩

end FifoSystem

end IpcPerformance
