import IpcPerformance.Handler.NamedHandlers
import IpcPerformance.Handler.StreamSocket

/-! # The calls of a stream socket

The methods of a local `StreamSocket` as programs of system calls, so that those of other handlers may come
in between any two of them. A `read` may go round for as long as a message has not arrived whole: its
rounds are programs of their own.

* `StreamKernel.answer` — what a system call does, and what it may return.
* `StreamSocket.rounds_of_read` — the rounds make up `StreamSocket::read`.
* `StreamParty.method` — the methods. -/

namespace IpcPerformance

/-! ## The kernel -/

/-- What a descriptor is. -/
inductive Endpoint
  /-- A socket that neither listens nor is connected. -/
  | socket
  /-- The socket clients connect to. -/
  | listener
  /-- A client's end of a connection. -/
  | client (c : ℕ)
  /-- The server's end. -/
  | server (c : ℕ)
  deriving DecidableEq

/-- A connection. -/
structure Link where
  /-- The bytes that have not been received yet. -/
  bytes : List UInt8
  /-- Whether there will be no more: the client has closed its end, or the connection has been reset. -/
  hungUp : Bool
  /-- Whether it has been reset. -/
  reset : Bool
  /-- Whether the server has closed its end. -/
  shut : Bool

/-- A connection nothing has been sent on. -/
def Link.new : Link := ⟨[], false, false, false⟩

/-- A system call of a handler, about the name or about a descriptor of its own. -/
inductive StreamCall
  | socket
  /-- `remove`. -/
  | remove
  | bind (fd : ℤ)
  | listen (fd : ℤ)
  | connect (fd : ℤ)
  | poll (fd : ℤ)
  /-- `accept4`. -/
  | accept (fd : ℤ)
  | close (fd : ℤ)
  | send (fd : ℤ) (bytes : List UInt8)
  | recv (fd : ℤ) (count : ℕ)

/-- What the kernel knows of the socket with the name, and of the handlers `P` that use it. -/
structure StreamKernel (P : Type) where
  /-- What the descriptors of a handler are. -/
  endpoint : P → ℤ → Option Endpoint
  /-- The connections that wait to be accepted, the first one first, if somebody listens. -/
  waiting : Option (List ℕ)
  /-- The connections. -/
  link : ℕ → Link
  /-- For the record, who has made them. -/
  clients : List P
  /-- For the record, those that have been accepted, the last one first. -/
  accepted : List ℕ
  /-- For the record, what has been sent, and on which connection. -/
  deliveries : List (Delivery P)

namespace StreamKernel

variable {P : Type} [DecidableEq P]

/-- Nothing has happened yet. -/
def initial : StreamKernel P := ⟨fun _ _ => none, none, fun _ => .new, [], [], []⟩

/-- A descriptor becomes something else. -/
def assign (k : StreamKernel P) (p : P) (fd : ℤ) (e : Option Endpoint) : StreamKernel P :=
  { k with endpoint := Function.update k.endpoint p (Function.update (k.endpoint p) fd e) }

/-- A connection becomes something else. -/
def setLink (k : StreamKernel P) (c : ℕ) (l : Link) : StreamKernel P :=
  { k with link := Function.update k.link c l }

/-- What the end of a descriptor means to the others. When the socket that listens is closed, those who
wait have nobody to talk to. -/
def hangUp (k : StreamKernel P) : Endpoint → StreamKernel P
  | .socket => k
  | .listener =>
      { k with
        waiting := none
        link := fun c =>
          if c ∈ k.waiting.getD [] then { k.link c with shut := true } else k.link c }
  | .client c => k.setLink c { k.link c with hungUp := true }
  | .server c => k.setLink c { k.link c with shut := true }

/-- Bytes are sent on a connection. -/
def deliver (k : StreamKernel P) (p : P) (c : ℕ) (bytes : List UInt8) : StreamKernel P :=
  { k.setLink c { k.link c with bytes := (k.link c).bytes ++ bytes } with
    deliveries := k.deliveries ++ [⟨p, c, bytes⟩] }

/-- Bytes are received. -/
def take (k : StreamKernel P) (c n : ℕ) : StreamKernel P :=
  k.setLink c { k.link c with bytes := (k.link c).bytes.drop n }

/-- A connection is reset. -/
def resetLink (k : StreamKernel P) (c : ℕ) : StreamKernel P :=
  k.setLink c { k.link c with bytes := [], hungUp := true, reset := true }

/-- A connection is made. -/
def newLink (k : StreamKernel P) (p : P) (fd : ℤ) (waiting : List ℕ) : StreamKernel P :=
  { k.assign p fd (some (.client k.clients.length)) with
    waiting := some (waiting ++ [k.clients.length])
    clients := k.clients ++ [p] }

/-- A connection is accepted. -/
def acceptLink (k : StreamKernel P) (p : P) (fd : ℤ) (c : ℕ) (waiting : List ℕ) : StreamKernel P :=
  { k.assign p fd (some (.server c)) with
    waiting := some waiting
    accepted := c :: k.accepted }

/-- **What a system call does**, if it can return the reply; one that blocks is answered later. A number
that is in use is not given to another descriptor. Any part of a message may be sent, and it may arrive
piece by piece. Any call can fail; a descriptor is gone all the same when it is closed. Where `SIGPIPE`
ends the process, the call to send fails and the handler is closed. -/
def answer (p : P) (k : StreamKernel P) : StreamCall → KernelReply → Option (StreamKernel P)
  | .socket, .value fd =>
      if k.endpoint p fd = none then some (k.assign p fd (some .socket)) else none
  -- nobody looks at what it returns
  | .remove, _ => some k
  | .bind _, .value 0 => some k
  | .listen fd, .value 0 =>
      if k.endpoint p fd = some .socket then
        some { k.assign p fd (some .listener) with waiting := some [] }
      else none
  | .connect fd, .value 0 =>
      k.waiting.bind fun waiting =>
        if k.endpoint p fd = some .socket then some (k.newLink p fd waiting) else none
  | .poll _, .value _ => some k
  | .accept fd, .value fd' =>
      match k.waiting with
      | some (c :: waiting) =>
          if k.endpoint p fd = some .listener ∧ k.endpoint p fd' = none then
            some (k.acceptLink p fd' c waiting)
          else none
      | _ => none
  | .close fd, .value 0 => (k.endpoint p fd).map fun e => (k.assign p fd none).hangUp e
  | .close fd, .failed _ => (k.endpoint p fd).map fun e => (k.assign p fd none).hangUp e
  | .send fd bytes, .value n =>
      match k.endpoint p fd with
      | some (.client c) =>
          if 0 < n ∧ n ≤ bytes.length ∧ (k.link c).hungUp = false ∧ (k.link c).shut = false then
            some (k.deliver p c (bytes.take n))
          else none
      | _ => none
  | .recv fd count, .bytes bytes =>
      match k.endpoint p fd with
      | some (.server c) =>
          if bytes <+: (k.link c).bytes ∧ bytes.length ≤ count ∧
              (bytes = [] → (k.link c).bytes = [] ∧ (k.link c).hungUp = true) then
            some (k.take c bytes.length)
          else none
      | _ => none
  | .recv fd _, .reset =>
      match k.endpoint p fd with
      | some (.server c) => some (k.resetLink c)
      | _ => none
  | _, .failed _ => some k
  | _, _ => none

/-- **What a system call can do**, case by case. -/
inductive Effect (p : P) (k : StreamKernel P) : StreamCall → KernelReply → StreamKernel P → Prop
  | socket (fd : ℕ) (hfree : k.endpoint p fd = none) :
      Effect p k .socket (.value fd) (k.assign p fd (some .socket))
  | listen (fd : ℤ) : Effect p k (.listen fd) (.value 0)
      { k.assign p fd (some .listener) with waiting := some [] }
  | connect (fd : ℤ) (waiting : List ℕ) (hwaiting : k.waiting = some waiting) :
      Effect p k (.connect fd) (.value 0) (k.newLink p fd waiting)
  | accept (fd : ℤ) (fd' : ℕ) (c : ℕ) (waiting : List ℕ) (hwaiting : k.waiting = some (c :: waiting))
      (hfd : k.endpoint p fd = some .listener) (hfree : k.endpoint p fd' = none) :
      Effect p k (.accept fd) (.value fd') (k.acceptLink p fd' c waiting)
  | close (fd : ℤ) (r : KernelReply) (e : Endpoint) (hfd : k.endpoint p fd = some e) :
      Effect p k (.close fd) r ((k.assign p fd none).hangUp e)
  | send (fd : ℤ) (bytes : List UInt8) (n : ℕ) (c : ℕ) (hfd : k.endpoint p fd = some (.client c))
      (hhungUp : (k.link c).hungUp = false) :
      Effect p k (.send fd bytes) (.value n) (k.deliver p c (bytes.take n))
  | recv (fd : ℤ) (count : ℕ) (bytes : List UInt8) (c : ℕ) (hfd : k.endpoint p fd = some (.server c))
      (hbytes : bytes <+: (k.link c).bytes) (hcount : bytes.length ≤ count)
      (hend : bytes = [] → (k.link c).bytes = [] ∧ (k.link c).hungUp = true) :
      Effect p k (.recv fd count) (.bytes bytes) (k.take c bytes.length)
  | reset (fd : ℤ) (count : ℕ) (c : ℕ) (hfd : k.endpoint p fd = some (.server c)) :
      Effect p k (.recv fd count) .reset (k.resetLink c)
  /-- Nothing has happened. -/
  | nothing (c : StreamCall) (r : KernelReply) (hclose : ∀ fd, c ≠ .close fd)
      (hrecv : ∀ fd count, c = .recv fd count → ∃ again, r = .failed again)
      (hfails : (∃ fd, c = .accept fd) ∨ (∃ fd bytes, c = .send fd bytes) ∨ c = .socket →
        r.status = -1) :
      Effect p k c r k

theorem effect_of_answer {p : P} {k k' : StreamKernel P} {c : StreamCall} {r : KernelReply}
    (h : k.answer p c r = some k') : Effect p k c r k' := by
  unfold answer at h
  split at h
  · split at h
    · rename_i hfree
      cases h
      exact .socket _ hfree
    · cases h
  · cases h
    exact .nothing _ _ nofun nofun (by simp)
  · cases h
    exact .nothing _ _ nofun nofun (by simp)
  · split at h
    · cases h
      exact .listen _
    · cases h
  · rw [Option.bind_eq_some_iff] at h
    obtain ⟨waiting, hwaiting, h⟩ := h
    split at h
    · cases h
      exact .connect _ waiting hwaiting
    · cases h
  · cases h
    exact .nothing _ _ nofun nofun (by simp)
  · split at h
    · rename_i c waiting hwaiting
      split at h
      · rename_i hfd
        cases h
        exact .accept _ _ c waiting hwaiting hfd.1 hfd.2
      · cases h
    · cases h
  · obtain ⟨e, hfd, rfl⟩ := Option.map_eq_some_iff.mp h
    exact .close _ _ e hfd
  · obtain ⟨e, hfd, rfl⟩ := Option.map_eq_some_iff.mp h
    exact .close _ _ e hfd
  · split at h
    · rename_i c hfd
      split at h
      · rename_i hsend
        obtain ⟨-, -, hhungUp, -⟩ := hsend
        cases h
        exact .send _ _ _ c hfd hhungUp
      · cases h
    · cases h
  · split at h
    · rename_i c hfd
      split at h
      · rename_i hrecv
        cases h
        exact .recv _ _ _ c hfd hrecv.1 hrecv.2.1 hrecv.2.2
      · cases h
    · cases h
  · split at h
    · rename_i c hfd
      cases h
      exact .reset _ _ c hfd
    · cases h
  · -- the cases before have been about the failures of `remove` and `close`
    rename_i again hremove hclose
    cases h
    exact .nothing _ _ hclose (fun _ _ _ => ⟨again, rfl⟩) fun _ => rfl
  · cases h

/-- **What a stream is relied on for**: a message is sent whole, or not at all, and a call that fails to
receive anything has found nothing, or that the connection has been reset. -/
def Harmless (_ : StreamKernel P) : StreamCall → KernelReply → Prop
  | .send _ bytes, .value n => n = bytes.length
  | .recv _ _, .failed again => again = true
  | _, _ => True

instance decidableHarmless (k : StreamKernel P) (c : StreamCall) (r : KernelReply) :
    Decidable (k.Harmless c r) := by
  unfold Harmless
  split <;> infer_instance

end StreamKernel

/-- A program of system calls. -/
abbrev StreamProgram (α : Type) : Type := Program StreamCall KernelReply α

/-! ## The rounds of `read` -/

/-- Where the loops of `read` are, with the number of bytes that have been received. -/
inductive ReadPoint
  | header (amount : ℕ)
  | body (header : DataHeader) (amount : ℕ)
  deriving DecidableEq

namespace StreamSocket

/-- The bytes that are asked for. -/
def window : ReadPoint → ℕ
  | .header amount => DataHeader.headerSize - amount
  | .body header amount => header.bodySize.toNat - amount

/-- The end of `read`, when the body is there. -/
def finishBody (header : DataHeader) (buffer : Memory UInt8) : ReadResult :=
  readResult header (deserializeDataObject header.type buffer 0 header.bodySize.toNat)

/-- Behind the header: a body without bytes is there. -/
def startBody (header : DataHeader) (buffer : Memory UInt8) : ReadPoint ⊕ ReadResult :=
  if 0 < header.bodySize.toNat then .inl (.body header 0) else .inr (finishBody header buffer)

/-- One round of one of the loops, with what `recv` returns: how `read` goes on, or what it returns. -/
def readRound (buffer : Memory UInt8) : ReadPoint → RecvResult → Memory UInt8 × (ReadPoint ⊕ ReadResult)
  | .header amount, .again =>
      -- some part of the header was already read, or nothing yet
      (buffer, if amount > 0 then .inl (.header amount) else .inr (.error .noDataAvailable))
  | .body header amount, .again => (buffer, .inl (.body header amount))
  | _, .error => (buffer, .inr (.error .readError))
  | .header amount, .bytes bytes =>
      if bytes = [] then (buffer, .inr (.error .connectionClosed))
      else
        let buffer := buffer.write amount bytes
        if amount + bytes.length < DataHeader.headerSize then
          (buffer, .inl (.header (amount + bytes.length)))
        else
          match DataHeader.deserialize buffer 0 DataHeader.headerSize with
          | none => (buffer, .inr (.error .invalidHeader))
          | some header => (buffer, startBody header buffer)
  | .body header amount, .bytes bytes =>
      if bytes = [] then (buffer, .inr (.error .connectionClosed))
      else
        let buffer := buffer.write amount bytes
        if amount + bytes.length < header.bodySize.toNat then
          (buffer, .inl (.body header (amount + bytes.length)))
        else (buffer, .inr (finishBody header buffer))

/-- The rounds from a point on, on a stream, up to the result. -/
inductive Rounds : Memory UInt8 → ReadPoint → ByteStream → ReadResult → Memory UInt8 → ByteStream → Prop
  | last {buffer buffer' : Memory UInt8} {point : ReadPoint} {stream next : ByteStream}
      {reply : RecvResult} {result : ReadResult} (hrecv : stream.recv (window point) = (reply, next))
      (hround : readRound buffer point reply = (buffer', .inr result)) :
      Rounds buffer point stream result buffer' next
  | round {buffer buffer' buffer'' : Memory UInt8} {point point' : ReadPoint}
      {stream next rest : ByteStream} {reply : RecvResult} {result : ReadResult}
      (hrecv : stream.recv (window point) = (reply, next))
      (hround : readRound buffer point reply = (buffer', .inl point'))
      (hrest : Rounds buffer' point' next result buffer'' rest) :
      Rounds buffer point stream result buffer'' rest

/-- How `read` goes on when the loop of the header is over. -/
def afterHeader (buffer : Memory UInt8) : Option CommunicationError → ReadPoint ⊕ ReadResult
  | some e => .inr (.error e)
  | none =>
      match DataHeader.deserialize buffer 0 DataHeader.headerSize with
      | none => .inr (.error .invalidHeader)
      | some header => startBody header buffer

/-- The rounds that are left, if there are any. -/
def RoundsLeft (buffer : Memory UInt8) (left : ReadPoint ⊕ ReadResult) (stream : ByteStream)
    (result : ReadResult) (buffer' : Memory UInt8) (rest : ByteStream) : Prop :=
  match left with
  | .inl point => Rounds buffer point stream result buffer' rest
  | .inr result' => result' = result ∧ buffer = buffer' ∧ stream = rest

/-- One round, and then the others. -/
theorem RoundsLeft.round {buffer buffer' buffer'' : Memory UInt8} {left : ReadPoint ⊕ ReadResult}
    {point : ReadPoint} {stream next rest : ByteStream} {reply : RecvResult} {result : ReadResult}
    (h : RoundsLeft buffer' left next result buffer'' rest)
    (hrecv : stream.recv (window point) = (reply, next))
    (hround : readRound buffer point reply = (buffer', left)) :
    Rounds buffer point stream result buffer'' rest := by
  cases left with
  | inl point' => exact .round hrecv hround h
  | inr result' =>
      obtain ⟨rfl, rfl, rfl⟩ := h
      exact .last hrecv hround

/-- What `read` returns when the loop of the body is over. -/
def afterBody (header : DataHeader) (buffer : Memory UInt8) :
    Option CommunicationError → ReadPoint ⊕ ReadResult
  | some e => .inr (.error e)
  | none => .inr (finishBody header buffer)

/-- **A loop of `read`**: its points, and how `read` goes on when it is over. -/
structure ReadLoop (limit : ℕ) (again : ℕ → Option CommunicationError) (point : ℕ → ReadPoint)
    (after : Memory UInt8 → Option CommunicationError → ReadPoint ⊕ ReadResult) : Prop where
  window (amount : ℕ) : window (point amount) = limit - amount
  leave {amount : ℕ} {e : CommunicationError} (h : again amount = some e) (buffer : Memory UInt8) :
    readRound buffer (point amount) .again = (buffer, after buffer (some e))
  wait {amount : ℕ} (h : again amount = none) (buffer : Memory UInt8) :
    readRound buffer (point amount) .again = (buffer, .inl (point amount))
  error (amount : ℕ) (buffer : Memory UInt8) :
    readRound buffer (point amount) .error = (buffer, after buffer (some .readError))
  closed (amount : ℕ) (buffer : Memory UInt8) :
    readRound buffer (point amount) (.bytes []) = (buffer, after buffer (some .connectionClosed))
  more {amount : ℕ} {bytes : List UInt8} (hne : bytes ≠ []) (h : amount + bytes.length < limit)
    (buffer : Memory UInt8) : readRound buffer (point amount) (.bytes bytes) =
      (buffer.write amount bytes, .inl (point (amount + bytes.length)))
  full {amount : ℕ} {bytes : List UInt8} (hne : bytes ≠ []) (h : ¬ amount + bytes.length < limit)
    (buffer : Memory UInt8) : readRound buffer (point amount) (.bytes bytes) =
      (buffer.write amount bytes, after (buffer.write amount bytes) none)

/-- The loop of the header. -/
theorem readLoop_header : ReadLoop DataHeader.headerSize headerAgain .header afterHeader where
  window _ := rfl
  leave {amount e} h buffer := by
    rw [headerAgain] at h
    split at h <;> cases h
    rename_i hzero
    rw [readRound, if_neg hzero]
    rfl
  wait {amount} h buffer := by
    rw [headerAgain] at h
    split at h <;> cases h
    rename_i hpos
    rw [readRound, if_pos hpos]
  error _ _ := rfl
  closed _ _ := rfl
  more {amount bytes} hne h buffer := by
    rw [readRound, if_neg hne]
    exact if_pos h
  full {amount bytes} hne h buffer := by
    rw [readRound, if_neg hne, afterHeader]
    dsimp only
    rw [if_neg h]
    cases DataHeader.deserialize (buffer.write amount bytes) 0 DataHeader.headerSize <;> rfl

/-- The loop of the body. -/
theorem readLoop_body (header : DataHeader) :
    ReadLoop header.bodySize.toNat bodyAgain (.body header) (afterBody header) where
  window _ := rfl
  leave h _ := by cases h
  wait _ _ := rfl
  error _ _ := rfl
  closed _ _ := rfl
  more hne h buffer := by
    rw [readRound, if_neg hne]
    exact if_pos h
  full hne h buffer := by
    rw [readRound, if_neg hne]
    exact if_neg h

/-- **The rounds of a loop**, and then what is left. -/
theorem ReadLoop.rounds {limit : ℕ} {again : ℕ → Option CommunicationError} {point : ℕ → ReadPoint}
    {after : Memory UInt8 → Option CommunicationError → ReadPoint ⊕ ReadResult}
    (hloop : ReadLoop limit again point after) {buffer buffer' : Memory UInt8} {amount : ℕ}
    {stream rest : ByteStream} {exit : Option CommunicationError} {result : ReadResult}
    (hlt : amount < limit) {received : Received}
    (hreceived : recvLoop limit again buffer amount stream = received) (h : received.outcome = .ok exit)
    (hleft : RoundsLeft received.buffer (after received.buffer exit) received.stream result buffer' rest) :
    Rounds buffer (point amount) stream result buffer' rest := by
  have hcall {amount : ℕ} {stream : ByteStream} {reply : RecvResult × ByteStream}
      (hrecv : stream.recv (limit - amount) = reply) :
      stream.recv (StreamSocket.window (point amount)) = reply := by
    rw [hloop.window, hrecv]
  -- induction on the loop: a round goes on as another one, or it is the last one of the loop
  fun_induction recvLoop limit again buffer amount stream generalizing received with
  | case1 buffer amount stream call next hrecv e hagain =>
      subst hreceived
      cases h
      exact hleft.round (hcall hrecv) (hloop.leave hagain buffer)
  | case2 buffer amount stream call next hrecv hagain hwork ih =>
      subst hreceived
      have hrest := ih hlt rfl h hleft
      exact .round (hcall hrecv) (hloop.wait hagain buffer) hrest
  | case3 buffer amount stream call next hrecv hagain hwork =>
      subst hreceived
      cases h
  | case4 buffer amount stream call next hrecv =>
      subst hreceived
      cases h
      exact hleft.round (hcall hrecv) (hloop.error amount buffer)
  | case5 buffer amount stream call next hrecv =>
      subst hreceived
      cases h
      exact hleft.round (hcall hrecv) (hloop.closed amount buffer)
  | case6 buffer amount stream call bytes next hrecv hne hmore ih =>
      subst hreceived
      have hrest := ih hmore.1 rfl h hleft
      exact .round (hcall hrecv) (hloop.more hne hmore.1 buffer) hrest
  | case7 buffer amount stream call bytes next hrecv hne hmore =>
      subst hreceived
      cases h
      have hpos : 0 < limit - amount := by omega
      obtain ⟨-, -, -, -, -, hwork⟩ := ByteStream.of_recv_bytes hpos hne hrecv
      exact hleft.round (hcall hrecv) (hloop.full hne (fun hless => hmore ⟨hless, hwork⟩) buffer)

/-- Behind the header, the rounds make up the body part of `read`. -/
theorem roundsLeft_readBody {header : DataHeader} {buffer : Memory UInt8} {stream : ByteStream}
    {result : ReadResult} (h : (readBody header buffer stream).outcome = .ok result) :
    RoundsLeft buffer (startBody header buffer) stream result (readBody header buffer stream).buffer
      (readBody header buffer stream).stream := by
  by_cases hpos : 0 < header.bodySize.toNat
  · simp only [readBody, if_pos hpos] at h ⊢
    rw [startBody, if_pos hpos]
    cases hbody : (recvLoop header.bodySize.toNat bodyAgain buffer 0 stream).outcome with
    | error fault =>
        rw [hbody] at h
        cases h
    | ok exit =>
        refine (readLoop_body header).rounds hpos rfl hbody ?_
        rw [hbody] at h
        cases exit <;> cases h <;> exact ⟨rfl, rfl, rfl⟩
  · simp only [readBody, if_neg hpos] at h ⊢
    rw [startBody, if_neg hpos]
    cases h
    exact ⟨rfl, rfl, rfl⟩

/-- **The rounds make up `read`**: what it returns is what they return, and they leave what it leaves. -/
theorem rounds_of_read {socket : StreamSocket} (hopen : socket.cfd ≠ -1) {stream : ByteStream}
    {result : ReadResult} (h : (socket.read stream).outcome = .ok result) :
    Rounds socket.buffer (.header 0) stream result (socket.read stream).buffer
      (socket.read stream).stream := by
  simp only [read, if_neg hopen] at h ⊢
  cases hhead : (recvLoop DataHeader.headerSize headerAgain socket.buffer 0 stream).outcome with
  | error fault =>
      rw [hhead] at h
      cases h
  | ok exit =>
      rw [hhead] at h
      refine readLoop_header.rounds (by decide) rfl hhead ?_
      cases exit with
      | some e =>
          cases h
          exact ⟨rfl, rfl, rfl⟩
      | none =>
          dsimp only at h ⊢
          rw [afterHeader]
          revert h
          cases DataHeader.deserialize
              (recvLoop DataHeader.headerSize headerAgain socket.buffer 0 stream).buffer 0
              DataHeader.headerSize with
          | none =>
              intro h
              cases h
              exact ⟨rfl, rfl, rfl⟩
          | some header =>
              intro h
              exact roundsLeft_readBody h

/-- A message that arrives in two pieces. -/
def twoPieces : ByteStream :=
  ⟨StreamEvent.push ((imageOf (Channel.message 1 .ping 7)).take 5)
    (.again :: StreamEvent.push ((imageOf (Channel.message 1 .ping 7)).drop 5) []), false⟩

/-- Three rounds of the header make up the `read` that returns it. -/
theorem rounds_of_read_twoPieces : ∃ buffer next,
    Rounds (fun _ => 0) (.header 0) twoPieces (.ok (Channel.message 1 .ping 7)) buffer next := by
  have hopen : (⟨true, true, 3, 4, 0, fun _ => 0⟩ : StreamSocket).cfd ≠ -1 := by decide
  have hno : ∀ next, twoPieces.recv DataHeader.headerSize ≠ (.again, next) := fun _ h => by cases h
  have hreliable : twoPieces.Reliable := by decide
  have hsize : (Channel.message 1 .ping 7).1.bodySize.toNat = ([] : List UInt8).length := rfl
  have hpending : twoPieces.pending = (Channel.message 1 .ping 7).1.image ++ ([] ++ []) := rfl
  obtain ⟨buffer, next, calls, hread, -⟩ := read_of_frame hopen hreliable hno hsize hpending
  have houtcome : ((⟨true, true, 3, 4, 0, fun _ => 0⟩ : StreamSocket).read twoPieces).outcome =
      .ok (.ok (Channel.message 1 .ping 7)) := by
    rw [hread]
    rfl
  exact ⟨_, _, rounds_of_read hopen houtcome⟩

/-! ## The other methods -/

/-- `StreamSocket::create_server`, for a local socket. -/
def createServer (socket : StreamSocket) : StreamProgram (Bool × StreamSocket) :=
  .call .socket fun res =>
    let socket := { socket with sfd := res.status }
    if socket.sfd = -1 then .ret (false, socket)
    else
      .call .remove fun _ =>
        .call (.bind socket.sfd) fun res =>
          if res.status = -1 then .ret (false, socket)
          else .call (.listen socket.sfd) fun res => .ret (decide (res.status ≠ -1), socket)

/-- `StreamSocket::create_client`, for a local socket. -/
def createClient (socket : StreamSocket) : StreamProgram (Bool × StreamSocket) :=
  .call .socket fun res =>
    let socket := { socket with sfd := res.status }
    if socket.sfd = -1 then .ret (false, socket)
    else .call (.connect socket.sfd) fun res => .ret (decide (res.status ≠ -1), socket)

/-- `StreamSocket::close`. -/
def closeHandler (socket : StreamSocket) : StreamProgram (Bool × StreamSocket) :=
  if socket.sfd = -1 then .ret (false, socket)
  else
    let closed := { socket with sfd := -1, cfd := -1 }
    let removing : StreamProgram (Bool × StreamSocket) :=
      if socket.unix && socket.server then .call .remove fun _ => .ret (true, closed)
      else .ret (true, closed)
    .call (.close socket.sfd) fun _ =>
      if socket.cfd ≠ -1 then .call (.close socket.cfd) fun _ => removing else removing

/-- `StreamSocket::open`. -/
def openHandler (socket : StreamSocket) : StreamProgram (Bool × StreamSocket) :=
  if socket.sfd ≠ -1 then .ret (true, socket)
  else
    (if socket.server then createServer socket else createClient socket).bind fun (created, socket) =>
      if created then .ret (true, socket)
      else (closeHandler socket).bind fun (_, socket) => .ret (false, socket)

/-- `StreamSocket::~StreamSocket`. -/
def destroy (socket : StreamSocket) : StreamProgram StreamSocket :=
  if socket.sfd ≠ -1 then (closeHandler socket).bind fun (_, socket) => .ret socket else .ret socket

/-- The second half of `StreamSocket::accept`. -/
def acceptNext (socket : StreamSocket) : StreamProgram (Bool × StreamSocket) :=
  .call (.poll socket.sfd) fun res =>
    if res.status = -1 then .ret (false, socket)
    else if res.status = 0 then .ret (false, socket)
    else
      .call (.accept socket.sfd) fun res =>
        if res.status = -1 then .ret (false, socket) else .ret (true, { socket with cfd := res.status })

/-- `StreamSocket::accept`. -/
def acceptProgram (socket : StreamSocket) : StreamProgram (Bool × StreamSocket) :=
  if socket.sfd = -1 then .ret (false, socket)
  else if socket.cfd ≠ -1 then .call (.close socket.cfd) fun _ => acceptNext { socket with cfd := -1 }
  else acceptNext socket

/-- The second half of `StreamSocket::has_data`, and of `await_data`. -/
def pollClient (socket : StreamSocket) : StreamProgram Bool :=
  .call (.poll socket.cfd) fun res => .ret (decide (res.status > 0))

/-- `StreamSocket::has_data`. -/
def hasDataProgram (socket : StreamSocket) : StreamProgram Bool :=
  if socket.cfd = -1 then .ret false else pollClient socket

/-- `StreamSocket::await_data`: what it returns, and, for the record, whether it has accepted. -/
def awaitDataProgram (socket : StreamSocket) : StreamProgram (Bool × Bool × StreamSocket) :=
  if socket.cfd = -1 then
    (acceptProgram socket).bind fun (accepted, socket) =>
      if accepted then (pollClient socket).bind fun ready => .ret (ready, true, socket)
      else .ret (false, false, socket)
  else (pollClient socket).bind fun ready => .ret (ready, false, socket)

/-- `StreamSocket::write`. -/
def writeProgram (socket : StreamSocket) (o : DataObject) (timestamp : Int64) :
    StreamProgram (Bool × StreamSocket) :=
  if socket.sfd = -1 then .ret (false, socket)
  else
    match assemble socket.buffer socket.lastId o timestamp with
    | (buffer, none) => .ret (false, { socket with buffer })
    | (buffer, some (lastId, size)) =>
        .call (.send socket.sfd (buffer.read 0 (DataHeader.headerSize + size))) fun res =>
          .ret (decide (res.status ≠ -1), { socket with buffer, lastId })

/-- With a reply to its system call, the program does what `write` does. -/
theorem value_writeProgram (socket : StreamSocket) (o : DataObject) (timestamp : Int64)
    (reply : KernelReply) :
    (writeProgram socket o timestamp).value (fun _ => reply) =
      let call := socket.write o timestamp (.ofReply reply)
      (call.result, { socket with buffer := call.buffer, lastId := call.lastId }) := by
  unfold writeProgram write bufferedWrite
  by_cases hopen : socket.sfd = -1
  · rw [if_pos hopen, if_neg (by simp [hopen])]
    rfl
  · rw [if_neg hopen, if_pos (decide_eq_true hopen)]
    rcases assemble socket.buffer socket.lastId o timestamp with ⟨buffer, _ | ⟨lastId, size⟩⟩
    · rfl
    · by_cases hfails : reply.status = -1
      · simp [Program.value, SendOutcome.ofReply, hfails]
      · simp [Program.value, SendOutcome.ofReply, hfails]

/-- What `recv` returns. -/
def recvResult : KernelReply → RecvResult
  | .bytes bytes => .bytes bytes
  | .failed true => .again
  | _ => .error

/-- One round of `StreamSocket::read`. -/
def roundProgram (socket : StreamSocket) (point : ReadPoint) :
    StreamProgram (StreamSocket × (ReadPoint ⊕ ReadResult)) :=
  .call (.recv socket.cfd (window point)) fun res =>
    let (buffer, left) := readRound socket.buffer point (recvResult res)
    .ret ({ socket with buffer }, left)

end StreamSocket

/-! ## Handlers -/

/-- What a handler is asked for. -/
inductive StreamJob
  | openHandler
  | closeHandler
  | destroy
  | accept
  | awaitData
  | hasData
  | write (o : DataObject) (timestamp : Int64)
  | read

/-- What a method has returned. -/
inductive StreamReport
  | opened (success : Bool)
  | closed (success : Bool)
  | destroyed
  | accepted (success : Bool)
  | awaited (ready : Bool)
  | polled (ready : Bool)
  | written (success : Bool)
  | read (result : ReadResult)

/-- For the record, what has been read on a connection. -/
structure StreamSession where
  /-- The messages. -/
  inbox : List (DataHeader × DataObject)
  /-- Whether its end has been found. -/
  ended : Bool

/-- What a call of `read` adds to it. -/
def StreamSession.after (s : StreamSession) : ReadResult → StreamSession
  | .ok m => { s with inbox := s.inbox ++ [m] }
  | .error e => if e = .connectionClosed then { s with ended := true } else s

/-- A handler, with a record of what it has done. -/
structure StreamParty where
  socket : StreamSocket
  /-- How far `read` has got; it begins with the header. -/
  point : ReadPoint
  /-- The connections that have been accepted, the last one first. -/
  sessions : List StreamSession
  /-- The messages that have been written, as `write` has reported. -/
  outbox : List (DataHeader × DataObject)
  /-- What the last method has returned; a round that is not the last one returns nothing. -/
  last : Option StreamReport

namespace StreamParty

/-- The next round of `read`. -/
def round (l : StreamParty) : StreamProgram StreamParty :=
  (l.socket.roundProgram l.point).bind fun (socket, left) =>
    match left with
    | .inl point => .ret { l with socket, point, last := none }
    | .inr result =>
        .ret { l with
          socket
          point := .header 0
          sessions := l.sessions.modifyHead fun s => s.after result
          last := some (.read result) }

/-- A connection that has been accepted. -/
def begins (accepted : Bool) (sessions : List StreamSession) : List StreamSession :=
  if accepted then ⟨[], false⟩ :: sessions else sessions

/-- **The methods**. A `read` that has begun goes on before anything else. -/
def method (l : StreamParty) (j : StreamJob) : StreamProgram StreamParty :=
  if l.point = .header 0 then
    match j with
    | .openHandler => (l.socket.openHandler).bind fun (success, socket) =>
        .ret { l with socket, last := some (.opened success) }
    | .closeHandler => (l.socket.closeHandler).bind fun (success, socket) =>
        .ret { l with socket, last := some (.closed success) }
    | .destroy => (l.socket.destroy).bind fun socket => .ret { l with socket, last := some .destroyed }
    | .accept => (l.socket.acceptProgram).bind fun (success, socket) =>
        .ret { l with
          socket
          sessions := begins success l.sessions
          last := some (.accepted success) }
    | .awaitData => (l.socket.awaitDataProgram).bind fun (ready, accepted, socket) =>
        .ret { l with socket, sessions := begins accepted l.sessions, last := some (.awaited ready) }
    | .hasData => (l.socket.hasDataProgram).bind fun ready => .ret { l with last := some (.polled ready) }
    | .write o timestamp => (l.socket.writeProgram o timestamp).bind fun (success, socket) =>
        .ret { l with
          socket
          outbox := if success then l.outbox ++ [Channel.message socket.lastId o timestamp] else l.outbox
          last := some (.written success) }
    | .read =>
        if l.socket.cfd = -1 then .ret { l with last := some (.read (.error .connectionClosed)) }
        else l.round
  else l.round

end StreamParty

/-- Handlers of local stream sockets with the same name. -/
def StreamSocket.system (P : Type) [DecidableEq P] :
    Parallel P (StreamKernel P) StreamCall KernelReply StreamParty StreamJob :=
  ⟨StreamKernel.answer, fun _ => StreamParty.method⟩

/-- Nothing has been opened yet. -/
def StreamSocket.start {P : Type} [DecidableEq P] (sockets : P → StreamSocket) : (system P).State :=
  ⟨.initial, fun p => .ret ⟨sockets p, .header 0, [], [], none⟩⟩

end IpcPerformance
