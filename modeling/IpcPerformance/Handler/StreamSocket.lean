import IpcPerformance.Handler.CommunicationHandler
import IpcPerformance.Library.Runs

/-! # Stream sockets

`StreamSocket::accept`, `write` and `read` of `src/handler/stream_socket.cpp`. The connection behind
`cfd_` is a `ByteStream`; the connections still to be accepted are a list of what `poll` and
`accept4` will report. `read` records the window of `buffer_` every `recv` is given. -/

namespace IpcPerformance

/-- The state a receive loop leaves behind. -/
structure Received where
  /-- How the loop ended: it was left with an error, or ran to its end. -/
  outcome : Except Fault (Option CommunicationError)
  /-- The bytes of `buffer_`. -/
  buffer : Memory UInt8
  /-- What is left of the stream. -/
  stream : ByteStream
  /-- The calls of `recv`, in order. -/
  calls : List RecvCall

/-- A loop that makes a call and then goes on as another one. -/
def Received.after (call : RecvCall) (r : Received) : Received := { r with calls := call :: r.calls }

/-- The two receive loops of `StreamSocket::read`: fill `buffer_` up to `limit`, `amount` bytes being
there. They differ in what `EAGAIN` does, which `again` says: leave with an error, or go round. A
loop that would block on a stream where nothing will happen any more goes round for ever. -/
def recvLoop (limit : ℕ) (again : ℕ → Option CommunicationError) (buffer : Memory UInt8)
    (amount : ℕ) (stream : ByteStream) : Received :=
  let call : RecvCall := ⟨amount, limit - amount⟩
  match stream.recv (limit - amount) with
  | (.again, next) =>
      match again amount with
      | some e => ⟨.ok (some e), buffer, next, [call]⟩
      | none =>
          if next.work < stream.work then
            (recvLoop limit again buffer amount next).after call
          else ⟨.error .hang, buffer, next, [call]⟩
  | (.error, next) => ⟨.ok (some .readError), buffer, next, [call]⟩
  | (.bytes bytes, next) =>
      -- `recv` returned 0: the peer has closed the connection
      if bytes = [] then ⟨.ok (some .connectionClosed), buffer, next, [call]⟩
      else if amount + bytes.length < limit ∧ next.work < stream.work then
        (recvLoop limit again (buffer.write amount bytes) (amount + bytes.length) next).after call
      else ⟨.ok none, buffer.write amount bytes, next, [call]⟩
termination_by stream.work
decreasing_by
  · assumption
  · exact (by assumption : _ ∧ _).2

/-- `EAGAIN` in the header loop: no data when nothing has been read yet, otherwise wait for the
rest. -/
def headerAgain (amount : ℕ) : Option CommunicationError :=
  if amount > 0 then none else some .noDataAvailable

/-- `EAGAIN` in the body loop: wait for the rest. -/
def bodyAgain (_amount : ℕ) : Option CommunicationError := none

/-- What `poll` and `accept4` report on the listening socket. -/
inductive AcceptEvent
  | pollError
  | timeout
  | acceptError
  | client (fd : ℕ) (stream : ByteStream)
  deriving DecidableEq

/-- The stream of an accepted client. -/
def AcceptEvent.stream? : AcceptEvent → Option ByteStream
  | .client _ stream => some stream
  | _ => none

/-- The fields of `StreamSocket` its operations use; a descriptor is `-1` when it is not open. -/
structure StreamSocket where
  /-- Whether this socket is the server. -/
  server : Bool
  /-- Whether this socket is local. -/
  unix : Bool
  /-- Listening or connected socket. -/
  sfd : ℤ
  /-- Accepted socket. -/
  cfd : ℤ
  /-- Id of the last message written. -/
  lastId : UInt32
  /-- The bytes of `buffer_`; indices from `bufferSize` on are what lies behind it. -/
  buffer : Memory UInt8

/-- What the kernel holds for the server: the accepted connection and the ones to come. -/
structure Network where
  /-- The stream behind `cfd_`. -/
  stream : ByteStream
  /-- What accepting will report, call by call. -/
  backlog : List AcceptEvent

namespace StreamSocket

/-- `StreamSocket::accept`. -/
def accept (socket : StreamSocket) (net : Network) : Bool × StreamSocket × Network :=
  if socket.sfd = -1 then (false, socket, net)
  else
    -- the old client socket, if any, is closed
    let socket := { socket with cfd := -1 }
    match net.backlog with
    | [] => (false, socket, net)
    | .client fd stream :: backlog => (true, { socket with cfd := fd }, { stream, backlog })
    | _ :: backlog => (false, socket, { net with backlog })

/-- `StreamSocket::write`. -/
def write (socket : StreamSocket) (o : DataObject) (timestamp : Int64) (send : SendOutcome) :
    WriteCall :=
  bufferedWrite (socket.sfd ≠ -1) socket.buffer socket.lastId o timestamp send

/-- The body part of `StreamSocket::read`. -/
def readBody (header : DataHeader) (buffer : Memory UInt8) (stream : ByteStream) : ReadCall :=
  let size := header.bodySize.toNat
  let body := if 0 < size then recvLoop size bodyAgain buffer 0 stream
    else ⟨.ok none, buffer, stream, []⟩
  let outcome := match body.outcome with
    | .error fault => .error fault
    | .ok (some e) => .ok (.error e)
    | .ok none => .ok (readResult header (deserializeDataObject header.type body.buffer 0 size))
  ⟨outcome, body.buffer, body.stream, body.calls⟩

/-- `StreamSocket::read`. -/
def read (socket : StreamSocket) (stream : ByteStream) : ReadCall :=
  if socket.cfd = -1 then ⟨.ok (.error .connectionClosed), socket.buffer, stream, []⟩
  else
    let head := recvLoop DataHeader.headerSize headerAgain socket.buffer 0 stream
    match head.outcome with
    | .error fault => ⟨.error fault, head.buffer, head.stream, head.calls⟩
    | .ok (some e) => ⟨.ok (.error e), head.buffer, head.stream, head.calls⟩
    | .ok none =>
        match DataHeader.deserialize head.buffer 0 DataHeader.headerSize with
        | none => ⟨.ok (.error .invalidHeader), head.buffer, head.stream, head.calls⟩
        | some header =>
            (readBody header head.buffer head.stream).after head.calls

/-- One read, given the handler and what is left of the stream. -/
def readStep : Stepper Fault ReadResult (StreamSocket × ByteStream) := fun s =>
  let call := s.1.read s.2
  call.outcome.map fun result => (result, ({ s.1 with buffer := call.buffer }, call.stream))

end StreamSocket

/-! ## What a receive loop does -/

/-- Every window of a loop ends at the limit. -/
theorem add_eq_of_mem_calls (limit : ℕ) (again : ℕ → Option CommunicationError)
    (buffer : Memory UInt8) (amount : ℕ) (stream : ByteStream) (hle : amount ≤ limit)
    {call : RecvCall} (hcall : call ∈ (recvLoop limit again buffer amount stream).calls) :
    call.start + call.length = limit := by
  have hhead : ∀ c : RecvCall, c = ⟨amount, limit - amount⟩ → c.start + c.length = limit := by
    rintro c rfl
    exact Nat.add_sub_cancel' hle
  -- every round asks for what is missing, so start and length add up to the limit
  fun_induction recvLoop limit again buffer amount stream with
  | case2 buffer amount stream call next hrecv hagain hwork ih =>
      rcases List.mem_cons.mp hcall with h | h
      · exact hhead _ h
      · exact ih hle h hhead
  | case6 buffer amount stream call bytes next hrecv hne hmore ih =>
      rcases List.mem_cons.mp hcall with h | h
      · exact hhead _ h
      · refine ih hmore.1.le h ?_
        rintro c rfl
        exact Nat.add_sub_cancel' hmore.1.le
  | _ => exact hhead _ (List.mem_singleton.mp hcall)

/-- A loop asks for all that is missing first. -/
theorem mem_calls_recvLoop (limit : ℕ) (again : ℕ → Option CommunicationError)
    (buffer : Memory UInt8) (amount : ℕ) (stream : ByteStream) :
    ⟨amount, limit - amount⟩ ∈ (recvLoop limit again buffer amount stream).calls := by
  fun_cases recvLoop limit again buffer amount stream <;> exact List.mem_cons_self

/-- A loop that waits for the rest fills the buffer when enough bytes arrive. -/
theorem recvLoop_of_le (limit : ℕ) (again : ℕ → Option CommunicationError)
    (hagain : ∀ a, 0 < a → again a = none) (buffer : Memory UInt8) (amount : ℕ)
    (stream : ByteStream)
    (hwait : again amount = none ∨ ∀ next, stream.recv (limit - amount) ≠ (.again, next))
    (hlt : amount < limit) (hle : limit - amount ≤ stream.arriving.length) :
    ∃ next calls, recvLoop limit again buffer amount stream =
        ⟨.ok none, buffer.write amount (stream.arriving.take (limit - amount)), next, calls⟩ ∧
      next.arriving = stream.arriving.drop (limit - amount) ∧ next.closed = stream.closed ∧
      (stream.Reliable → next.Reliable) ∧ next.work < stream.work := by
  -- induction on the work left: every round uses up an event or some bytes
  induction hwork : stream.work using Nat.strong_induction_on generalizing buffer amount stream with
  | _ work ih =>
    subst hwork
    rw [recvLoop]
    rcases stream.recv_cases (show 0 < limit - amount by omega) with
      ⟨next, hrecv, -, harriving, hclosed, hrel, hwork⟩ | ⟨_, _, hnil, _⟩ | ⟨_, hevents, _⟩ |
      ⟨bytes, next, hrecv, hne, hlen, -, harriving, hclosed, hrel, hwork⟩
    · -- the descriptor would block: there are bytes to come, so there is an event to use up
      have hlt' : next.work < stream.work := by
        rcases hwork with hwork | ⟨_, hevents, _⟩
        · exact hwork
        · simp [ByteStream.arriving, hevents] at hle
          omega
      have hnone := hwait.resolve_right fun h => h next hrecv
      simp only [hrecv, hnone, if_pos hlt']
      obtain ⟨last, calls, hloop, hlast, hlastClosed, hlastRel, hlastWork⟩ :=
        ih next.work hlt' buffer amount next (.inl hnone) hlt (by rw [harriving]; exact hle) rfl
      rw [hloop, harriving]
      exact ⟨last, _, rfl, by rw [hlast, harriving], by rw [hlastClosed, hclosed],
        fun h => hlastRel (hrel h), hlastWork.trans hlt'⟩
    · -- a failing receive, or the end: not enough bytes would arrive
      rw [hnil, List.length_nil] at hle
      omega
    · simp [ByteStream.arriving, hevents] at hle
      omega
    · -- some bytes arrive: the loop goes on behind them, or has all it asked for
      simp only [hrecv, if_neg hne]
      have hpos : 0 < bytes.length := List.length_pos_iff.mpr hne
      have htake : stream.arriving.take (limit - amount) =
          bytes ++ next.arriving.take (limit - (amount + bytes.length)) := by
        rw [harriving, List.take_append, List.take_of_length_le hlen, Nat.sub_sub]
      have hdrop : stream.arriving.drop (limit - amount) =
          next.arriving.drop (limit - (amount + bytes.length)) := by
        rw [harriving, List.drop_append, List.drop_of_length_le hlen, Nat.sub_sub, List.nil_append]
      by_cases hmore : amount + bytes.length < limit
      · rw [if_pos ⟨hmore, hwork⟩]
        have hle' : limit - (amount + bytes.length) ≤ next.arriving.length := by
          have := congrArg List.length harriving
          rw [List.length_append] at this
          omega
        obtain ⟨last, calls, hloop, hlast, hlastClosed, hlastRel, hlastWork⟩ :=
          ih next.work hwork (buffer.write amount bytes) (amount + bytes.length) next
            (.inl (hagain (amount + bytes.length) (by omega))) hmore hle' rfl
        rw [hloop, htake, hdrop, Memory.write_append]
        exact ⟨last, _, rfl, hlast, by rw [hlastClosed, hclosed], fun h => hlastRel (hrel h),
          hlastWork.trans hwork⟩
      · rw [if_neg (by omega), htake, hdrop, show limit - (amount + bytes.length) = 0 by omega,
          List.take_zero, List.append_nil, List.drop_zero]
        exact ⟨next, _, rfl, rfl, hclosed, hrel, hwork⟩

/-- A loop that runs to its end has been given enough bytes, and has not been told to leave. -/
theorem le_of_recvLoop (limit : ℕ) (again : ℕ → Option CommunicationError)
    (buffer : Memory UInt8) (amount : ℕ) (stream : ByteStream) (hlt : amount < limit)
    (hloop : (recvLoop limit again buffer amount stream).outcome = .ok none) :
    limit - amount ≤ stream.arriving.length ∧
      (again amount = none ∨ ∀ next, stream.recv (limit - amount) ≠ (.again, next)) := by
  have hpos : 0 < limit - amount := Nat.sub_pos_of_lt hlt
  fun_induction recvLoop limit again buffer amount stream with
  | case1 buffer amount stream call next hrecv e hagain => cases hloop
  | case2 buffer amount stream call next hrecv hagain hwork ih =>
      obtain ⟨-, harriving, -⟩ := ByteStream.of_recv_again hpos hrecv
      rw [← harriving]
      exact ⟨(ih hlt hloop hpos).1, .inl hagain⟩
  | case3 buffer amount stream call next hrecv hagain hwork => cases hloop
  | case4 buffer amount stream call next hrecv => cases hloop
  | case5 buffer amount stream call next hrecv => cases hloop
  | case6 buffer amount stream call bytes next hrecv hne hmore ih =>
      refine ⟨?_, .inr fun _ h => by cases h.symm.trans hrecv⟩
      obtain ⟨-, -, harriving, -⟩ := ByteStream.of_recv_bytes hpos hne hrecv
      have hrest := (ih hmore.1 hloop (Nat.sub_pos_of_lt hmore.1)).1
      rw [harriving, List.length_append]
      omega
  | case7 buffer amount stream call bytes next hrecv hne hlast =>
      refine ⟨?_, .inr fun _ h => by cases h.symm.trans hrecv⟩
      obtain ⟨-, -, harriving, -, -, hwork⟩ := ByteStream.of_recv_bytes hpos hne hrecv
      rw [harriving, List.length_append]
      omega

/-- A loop that waits for the rest of a stream that ends too early reports the disconnect, having
read all there was. -/
theorem recvLoop_of_lt (limit : ℕ) (again : ℕ → Option CommunicationError)
    (hagain : ∀ a, 0 < a → again a = none) (buffer : Memory UInt8) (amount : ℕ)
    (stream : ByteStream)
    (hwait : again amount = none ∨ ∀ next, stream.recv (limit - amount) ≠ (.again, next))
    (hlt : amount < limit) (hrel : stream.Reliable) (hclosed : stream.closed = true)
    (hle : stream.pending.length < limit - amount) :
    ∃ buffer' calls, recvLoop limit again buffer amount stream =
      ⟨.ok (some .connectionClosed), buffer', ⟨[], true⟩, calls⟩ := by
  induction hwork : stream.work using Nat.strong_induction_on generalizing buffer amount stream with
  | _ work ih =>
    subst hwork
    rw [recvLoop]
    rcases stream.recv_cases (show 0 < limit - amount by omega) with
      ⟨next, hrecv, hpending, -, hclosed', hrel', hwork⟩ | ⟨_, _, _, hfail⟩ | ⟨hrecv, hevents, _⟩ |
      ⟨bytes, next, hrecv, hne, hlen, hpending, -, hclosed', hrel', hwork⟩
    · -- the descriptor would block: a closed stream has an event left to use up
      have hlt' : next.work < stream.work := by
        rcases hwork with hwork | ⟨_, _, hopen⟩
        · exact hwork
        · rw [hclosed] at hopen
          cases hopen
      have hnone := hwait.resolve_right fun h => h next hrecv
      simp only [hrecv, hnone, if_pos hlt']
      obtain ⟨buffer', calls, hloop⟩ := ih next.work hlt' buffer amount next (.inl hnone) hlt
        (hrel' hrel) (by rw [hclosed', hclosed]) (by rw [hpending]; exact hle) rfl
      rw [hloop]
      exact ⟨buffer', _, rfl⟩
    · exact absurd hrel hfail
    · -- the end: a receive returns no bytes
      have hstream : stream = ⟨[], true⟩ := by
        obtain ⟨events, closed⟩ := stream
        simp only at hevents hclosed
        rw [hevents, hclosed]
      subst hstream
      exact ⟨buffer, _, rfl⟩
    · -- some bytes arrive, but not all that are missing
      simp only [hrecv, if_neg hne]
      have hlen' := congrArg List.length hpending
      rw [List.length_append] at hlen'
      have hpos : 0 < bytes.length := List.length_pos_iff.mpr hne
      rw [if_pos ⟨by omega, hwork⟩]
      obtain ⟨buffer', calls, hloop⟩ := ih next.work hwork (buffer.write amount bytes)
        (amount + bytes.length) next (.inl (hagain (amount + bytes.length) (by omega))) (by omega) (hrel' hrel)
        (by rw [hclosed', hclosed]) (by omega) rfl
      rw [hloop]
      exact ⟨buffer', _, rfl⟩

/-! ## What a read does -/

theorem headerAgain_of_pos (a : ℕ) (h : 0 < a) : headerAgain a = none := if_pos h

theorem bodyAgain_eq (a : ℕ) : bodyAgain a = none := rfl

namespace StreamSocket

/-- **What accepting does**: the connection served is given up; a client that is waiting takes its
place. -/
theorem accept_cases {socket : StreamSocket} (hsfd : socket.sfd ≠ -1) (net : Network) :
    (net.backlog = [] ∧ socket.accept net = (false, { socket with cfd := -1 }, net)) ∨
    (∃ fd stream backlog, net.backlog = .client fd stream :: backlog ∧
      socket.accept net = (true, { socket with cfd := fd }, ⟨stream, backlog⟩)) ∨
    (∃ event backlog, net.backlog = event :: backlog ∧ event.stream? = none ∧
      socket.accept net = (false, { socket with cfd := -1 }, ⟨net.stream, backlog⟩)) := by
  obtain ⟨stream, backlog⟩ := net
  cases backlog with
  | nil => exact .inl ⟨rfl, by rw [accept, if_neg hsfd]⟩
  | cons event backlog =>
      cases event with
      | client fd stream' =>
          exact .inr (.inl ⟨fd, stream', backlog, rfl, by rw [accept, if_neg hsfd]⟩)
      | pollError => exact .inr (.inr ⟨_, backlog, rfl, rfl, by rw [accept, if_neg hsfd]⟩)
      | timeout => exact .inr (.inr ⟨_, backlog, rfl, rfl, by rw [accept, if_neg hsfd]⟩)
      | acceptError => exact .inr (.inr ⟨_, backlog, rfl, rfl, by rw [accept, if_neg hsfd]⟩)

theorem readStep_of_ok {s : StreamSocket × ByteStream} {result : ReadResult} {buffer : Memory UInt8}
    {next : ByteStream} {calls : List RecvCall}
    (hread : s.1.read s.2 = ⟨.ok result, buffer, next, calls⟩) :
    readStep s = .ok (result, ({ s.1 with buffer }, next)) := by
  rw [readStep, hread]
  rfl

/-- A read on a stream that would block finds no data, and leaves everything in place. -/
theorem read_of_again {socket : StreamSocket} (hopen : socket.cfd ≠ -1)
    {stream next : ByteStream} (h : stream.recv DataHeader.headerSize = (.again, next)) :
    ∃ calls, socket.read stream =
      ⟨.ok (.error .noDataAvailable), socket.buffer, next, calls⟩ := by
  have hloop : recvLoop DataHeader.headerSize headerAgain socket.buffer 0 stream =
      ⟨.ok (some .noDataAvailable), socket.buffer, next, [⟨0, DataHeader.headerSize⟩]⟩ := by
    rw [recvLoop, Nat.sub_zero, h]
    rfl
  simp only [read, if_neg hopen, hloop]
  exact ⟨_, rfl⟩

/-- When a header arrives, the read goes on with the body it announces. -/
theorem read_of_header {socket : StreamSocket} (hopen : socket.cfd ≠ -1) {stream : ByteStream}
    (hno : ∀ next, stream.recv DataHeader.headerSize ≠ (.again, next))
    (hle : DataHeader.headerSize ≤ stream.arriving.length) :
    ∃ buffer mid calls,
      socket.read stream =
        (readBody (.ofImage (stream.arriving.take DataHeader.headerSize)) buffer mid).after calls ∧
      mid.arriving = stream.arriving.drop DataHeader.headerSize ∧ mid.closed = stream.closed ∧
      (stream.Reliable → mid.Reliable) ∧ mid.work < stream.work ∧
      ∀ call ∈ calls, call.start + call.length = DataHeader.headerSize := by
  obtain ⟨mid, calls, hhead, hmid, hclosed, hrel, hwork⟩ :=
    recvLoop_of_le DataHeader.headerSize headerAgain headerAgain_of_pos socket.buffer 0 stream
      (.inr hno) (by decide) (by rwa [Nat.sub_zero])
  rw [Nat.sub_zero] at hmid hhead
  have hread : (socket.buffer.write 0 (stream.arriving.take DataHeader.headerSize)).read 0
      DataHeader.headerSize = stream.arriving.take DataHeader.headerSize := by
    rw [Memory.read_write_take _ _ _ _ (by rw [List.length_take_of_le hle]), List.take_take,
      Nat.min_self]
  refine ⟨socket.buffer.write 0 (stream.arriving.take DataHeader.headerSize), mid, calls, ?_, hmid,
    hclosed, hrel, hwork, ?_⟩
  · simp only [read, if_neg hopen, hhead, DataHeader.deserialize_headerSize, hread]
  · intro call hcall
    refine add_eq_of_mem_calls DataHeader.headerSize headerAgain socket.buffer 0 stream
      (Nat.zero_le _) ?_
    rwa [hhead]

/-- Every window of the body loop ends with the body. -/
theorem add_eq_of_mem_calls_readBody (header : DataHeader) (buffer : Memory UInt8)
    (stream : ByteStream) {call : RecvCall} (hcall : call ∈ (readBody header buffer stream).calls) :
    call.start + call.length = header.bodySize.toNat := by
  by_cases hpos : 0 < header.bodySize.toNat
  · simp only [readBody, if_pos hpos] at hcall
    exact add_eq_of_mem_calls _ _ _ _ _ (Nat.zero_le _) hcall
  · simp [readBody, if_neg hpos] at hcall

/-- The first window of the body loop is the body. -/
theorem mem_calls_readBody {header : DataHeader} (hpos : 0 < header.bodySize.toNat)
    (buffer : Memory UInt8) (stream : ByteStream) :
    ⟨0, header.bodySize.toNat⟩ ∈ (readBody header buffer stream).calls := by
  simp only [readBody, if_pos hpos]
  exact mem_calls_recvLoop _ bodyAgain buffer 0 stream

/-- A body that arrives is read and decoded. -/
theorem readBody_of_le (header : DataHeader) (buffer : Memory UInt8) (stream : ByteStream)
    (hle : header.bodySize.toNat ≤ stream.arriving.length) :
    ∃ buffer' next calls, readBody header buffer stream =
        ⟨.ok (readResult header (DataObject.ofImage header.type
          (stream.arriving.take header.bodySize.toNat))), buffer', next, calls⟩ ∧
      next.arriving = stream.arriving.drop header.bodySize.toNat ∧ next.closed = stream.closed ∧
      (stream.Reliable → next.Reliable) ∧ next.work ≤ stream.work := by
  rcases Nat.eq_zero_or_pos header.bodySize.toNat with hzero | hpos
  · -- no second loop for an empty body
    simp only [readBody, hzero, lt_irrefl, if_false, deserializeDataObject_eq, Memory.read_zero,
      List.take_zero, List.drop_zero]
    exact ⟨buffer, stream, [], rfl, rfl, rfl, id, le_rfl⟩
  · obtain ⟨next, calls, hbody, hnext, hclosed, hrel, hwork⟩ :=
      recvLoop_of_le header.bodySize.toNat bodyAgain (fun a _ => bodyAgain_eq a) buffer 0 stream
        (.inl (bodyAgain_eq 0)) hpos (by rwa [Nat.sub_zero])
    rw [Nat.sub_zero] at hnext hbody
    have hread : (buffer.write 0 (stream.arriving.take header.bodySize.toNat)).read 0
        header.bodySize.toNat = stream.arriving.take header.bodySize.toNat := by
      rw [Memory.read_write_take _ _ _ _ (by rw [List.length_take_of_le hle]), List.take_take,
        Nat.min_self]
    simp only [readBody, if_pos hpos, hbody, deserializeDataObject_eq, hread]
    exact ⟨_, next, calls, rfl, hnext, hclosed, hrel, hwork.le⟩

/-- A read consumes the frame at the front of the stream, and nothing behind it. -/
theorem read_of_frame {socket : StreamSocket} (hopen : socket.cfd ≠ -1) {stream : ByteStream}
    (hrel : stream.Reliable) (hno : ∀ next, stream.recv DataHeader.headerSize ≠ (.again, next))
    {header : DataHeader} {body rest : List UInt8} (hsize : header.bodySize.toNat = body.length)
    (hpending : stream.pending = header.image ++ (body ++ rest)) :
    ∃ buffer next calls, socket.read stream =
        ⟨.ok (readResult header (DataObject.ofImage header.type body)), buffer, next, calls⟩ ∧
      next.pending = rest ∧ next.closed = stream.closed ∧ next.Reliable ∧
      next.work < stream.work := by
  rw [← ByteStream.arriving_of_reliable hrel] at hpending
  obtain ⟨buffer, mid, calls, hread, hmid, hmidClosed, hmidRel, hmidWork, -⟩ :=
    read_of_header hopen hno (by simp [hpending])
  rw [hpending, List.drop_left' header.length_image] at hmid
  rw [hpending, List.take_left' header.length_image, DataHeader.ofImage_image] at hread
  obtain ⟨buffer', next, calls', hbody, hnext, hnextClosed, hnextRel, hnextWork⟩ :=
    readBody_of_le header buffer mid (by simp [hmid, hsize])
  rw [hmid, hsize, List.take_left] at hbody
  rw [hmid, hsize, List.drop_left] at hnext
  refine ⟨buffer', next, calls ++ calls', by rw [hread, hbody]; rfl, ?_, hnextClosed.trans hmidClosed,
    hnextRel (hmidRel hrel), hnextWork.trans_lt hmidWork⟩
  rw [← ByteStream.arriving_of_reliable (hnextRel (hmidRel hrel)), hnext]

/-- A read on a stream that ends within its first frame reports the disconnect, having used up the
stream. -/
theorem read_of_cut {socket : StreamSocket} (hopen : socket.cfd ≠ -1) {stream : ByteStream}
    (hrel : stream.Reliable) (hclosed : stream.closed = true)
    (hno : ∀ next, stream.recv DataHeader.headerSize ≠ (.again, next))
    (hcut : stream.pending.length < DataHeader.headerSize ∨
      ∃ (header : DataHeader) (body : List UInt8), header.bodySize.toNat = body.length ∧
        stream.pending <+: header.image ++ body ∧
        stream.pending.length < DataHeader.headerSize + body.length) :
    ∃ buffer calls, socket.read stream =
      ⟨.ok (.error .connectionClosed), buffer, ⟨[], true⟩, calls⟩ := by
  by_cases hlen : stream.pending.length < DataHeader.headerSize
  · obtain ⟨buffer, calls, hhead⟩ :=
      recvLoop_of_lt DataHeader.headerSize headerAgain headerAgain_of_pos socket.buffer 0 stream
        (.inr hno) (by decide) hrel hclosed (by rwa [Nat.sub_zero])
    simp only [read, if_neg hopen, hhead]
    exact ⟨buffer, _, rfl⟩
  · obtain ⟨header, body, hsize, hprefix, hlt⟩ := hcut.resolve_left hlen
    have hall := ByteStream.arriving_of_reliable hrel
    obtain ⟨buffer, mid, calls, hread, hmid, hmidClosed, hmidRel, -⟩ :=
      read_of_header hopen hno (by rw [hall]; omega)
    -- all of the header is there, so it decodes and the body loop starts
    have htake : stream.arriving.take DataHeader.headerSize = header.image := by
      obtain ⟨tail, htail⟩ := hprefix
      have hhead := congrArg (List.take DataHeader.headerSize) htail
      rwa [List.take_append_of_le_length (by omega), List.take_left' header.length_image,
        ← hall] at hhead
    have hmidLen : mid.pending.length = stream.pending.length - DataHeader.headerSize := by
      rw [← ByteStream.arriving_of_reliable (hmidRel hrel), hmid, List.length_drop, hall]
    have hpos : 0 < body.length := by omega
    obtain ⟨buffer', calls', hbody⟩ :=
      recvLoop_of_lt body.length bodyAgain (fun a _ => bodyAgain_eq a) buffer 0 mid
        (.inl (bodyAgain_eq 0)) hpos (hmidRel hrel) (hmidClosed.trans hclosed) (by omega)
    refine ⟨buffer', calls ++ calls', ?_⟩
    rw [hread, htake, DataHeader.ofImage_image]
    simp only [readBody, hsize, if_pos hpos, hbody, ReadCall.after]

end StreamSocket

end IpcPerformance
