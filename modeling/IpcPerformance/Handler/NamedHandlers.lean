import IpcPerformance.Handler.FifoWriters
import IpcPerformance.Handler.RingNames
import IpcPerformance.Library.Ledger
import IpcPerformance.Library.Programs

/-! # Handlers that meet at a name

`Fifo`, `MessageQueue` and a local `DatagramSocket` know each other by a name in the file system. Their
methods are programs of system calls, so that those of other handlers may come in between any two of them.

* `Kernel.answer` — what a system call does, and what it may return.
* `Fifo.named`, `MessageQueue.named`, `DatagramSocket.named` — the three classes. -/

namespace IpcPerformance

/-! ## The kernel -/

/-- Without an object, one is created. -/
theorem Entry.create_of_none {α : Type} {e : Entry α} (h : e.linked = none) (a : α) :
    e.create a =
      (e.created, ⟨some e.created, e.created + 1, Function.update e.object e.created a⟩) := by
  rw [create, h]

/-- Otherwise nothing changes. -/
theorem Entry.create_of_some {α : Type} {e : Entry α} {i : ℕ} (h : e.linked = some i) (a : α) :
    e.create a = (i, e) := by
  rw [create, h]

/-- A system call of a handler, about the name or about a descriptor of its own. -/
inductive KernelCall
  /-- `unlink` or `remove`, and `mq_unlink` for a queue. -/
  | unlink (queue : Bool)
  /-- `mkfifo`. -/
  | makeFifo
  /-- `::open`. -/
  | openFile
  /-- `mq_open`, with `O_CREAT`. -/
  | openQueue
  /-- `socket`. -/
  | socket
  /-- `bind`. -/
  | bind (fd : ℤ)
  /-- `::close` or `mq_close`. -/
  | close (fd : ℤ)
  /-- `::write` or `mq_send`. -/
  | send (fd : ℤ) (bytes : List UInt8)
  /-- `sendto`, to the name. -/
  | sendTo (fd : ℤ) (bytes : List UInt8)
  /-- `::read`. -/
  | readBytes (fd : ℤ) (count : ℕ)
  /-- `mq_receive` or `recvfrom`. -/
  | receive (fd : ℤ)

/-- What a system call returns. -/
inductive KernelReply
  | value (n : ℕ)
  | bytes (received : List UInt8)
  /-- It fails, with `EAGAIN` or in another way. -/
  | failed (again : Bool)
  /-- It fails because the connection has been reset. -/
  | reset

namespace KernelReply

/-- The number that is returned. -/
def status : KernelReply → ℤ
  | value n => n
  | bytes received => received.length
  | failed _ => -1
  | reset => -1

/-- What a reader of messages gets. -/
def event : KernelReply → BoundaryEvent
  | bytes received => .message received
  | failed true => .again
  | _ => .fail

/-- What a reader of a pipe gets. -/
def stream : KernelReply → ByteStream
  | bytes received => pipeOf received
  | failed true => pipeOf []
  | _ => ⟨[.fail], false⟩

end KernelReply

/-- Something that has been sent. -/
structure Delivery (P : Type) where
  /-- Who has sent it. -/
  sender : P
  /-- The file it has gone to. -/
  file : ℕ
  /-- The bytes. -/
  bytes : List UInt8

/-- What the kernel knows of one name, and of the handlers `P` that use it. A file is a pipe, a queue or
the socket of a server: the bytes of its messages. -/
structure Kernel (P : Type) where
  /-- The files the name has stood for. -/
  name : Entry (List (List UInt8))
  /-- The file of a descriptor; a socket that is not bound has none. -/
  fileOf : P → ℤ → Option ℕ
  /-- The socket that has been bound last. -/
  receiver : Option (P × ℤ)
  /-- The descriptors each handler has opened and closed. -/
  log : P → List (LedgerEvent ℤ)
  /-- For the record, all that has been sent. -/
  deliveries : List (Delivery P)
  /-- For the record, how much had been sent when the name was removed last. -/
  cleared : ℕ
  /-- For the record, whether a handler has opened the name since then. -/
  recent : P → Bool

namespace Kernel

variable {P : Type} [DecidableEq P]

/-- Nothing has happened yet. -/
def initial : Kernel P := ⟨.absent [], fun _ _ => none, none, fun _ => [], [], 0, fun _ => false⟩

/-- The name is removed, if there is one. -/
def remove (k : Kernel P) : Kernel P :=
  { k with name := k.name.unlink, cleared := k.deliveries.length, recent := fun _ => false }

/-- A descriptor of a file, or of none. -/
def acquire (k : Kernel P) (p : P) (fd : ℕ) (file : Option ℕ) : Kernel P :=
  { k with
    fileOf := Function.update k.fileOf p (Function.update (k.fileOf p) fd file)
    log := Function.update k.log p (k.log p ++ [.acquired fd]) }

/-- A descriptor of the file the name stands for. -/
def acquireName (k : Kernel P) (p : P) (fd file : ℕ) : Kernel P :=
  { k.acquire p fd (some file) with recent := Function.update k.recent p true }

/-- A descriptor is given up. -/
def release (k : Kernel P) (p : P) (fd : ℤ) : Kernel P :=
  { k with
    fileOf := Function.update k.fileOf p (Function.update (k.fileOf p) fd none)
    log := Function.update k.log p (k.log p ++ [.released fd]) }

/-- The bytes in a file. -/
def content (k : Kernel P) (file : ℕ) : List (List UInt8) := k.name.object file

/-- Bytes are put into a file. -/
def deliver (k : Kernel P) (p : P) (file : ℕ) (bytes : List UInt8) : Kernel P :=
  { k with
    name := k.name.set file (k.content file ++ [bytes])
    deliveries := k.deliveries ++ [⟨p, file, bytes⟩] }

/-- **What a system call does**, if it can return the reply; one that blocks is answered later. Messages
keep to `PIPE_BUF` and to `mq_msgsize`, so they are sent whole, or not at all. Any call can fail; a
descriptor is gone all the same when it is closed. Where `SIGPIPE` ends the process, the write fails and
the handler is closed. -/
def answer (p : P) (k : Kernel P) : KernelCall → KernelReply → Option (Kernel P)
  | .unlink _, .value 0 => if k.name.linked = none then none else some k.remove
  -- there is nothing to remove, or it stays
  | .unlink _, .failed _ => some (if k.name.linked = none then k.remove else k)
  | .makeFifo, .value 0 =>
      if k.name.linked = none then some { k with name := (k.name.create []).2 } else none
  | .openFile, .value fd => k.name.linked.map fun file => k.acquireName p fd file
  | .openQueue, .value fd =>
      let (file, name) := k.name.create []
      some (acquireName { k with name } p fd file)
  | .socket, .value fd => some (k.acquire p fd none)
  | .bind fd, .value 0 =>
      if k.name.linked = none then
        let (file, name) := k.name.create []
        some { k with
          name
          fileOf := Function.update k.fileOf p (Function.update (k.fileOf p) fd (some file))
          receiver := some (p, fd) }
      else none
  | .close fd, .value 0 => some (k.release p fd)
  | .close fd, .failed _ => some (k.release p fd)
  | .send fd bytes, .value n =>
      if n = bytes.length then (k.fileOf p fd).map fun file => k.deliver p file bytes else none
  -- the socket the name stands for has to be open
  | .sendTo _ bytes, .value n =>
      k.name.linked.bind fun file =>
        if n = bytes.length ∧ (k.receiver.bind fun (q, fd) => k.fileOf q fd) = some file then
          some (k.deliver p file bytes)
        else none
  | .readBytes fd count, .bytes bytes =>
      (k.fileOf p fd).bind fun file =>
        let content := (k.content file).flatten
        if bytes = content.take count ∧ (bytes = [] → count = 0) then
          some { k with name := k.name.set file [content.drop count] }
        else none
  | .readBytes fd count, .failed true =>
      (k.fileOf p fd).bind fun file =>
        if (k.content file).flatten = [] ∧ count ≠ 0 then some k else none
  | .receive fd, .bytes bytes =>
      (k.fileOf p fd).bind fun file =>
        match k.content file with
        | [] => none
        | message :: content =>
            if bytes = message.take bufferSize then some { k with name := k.name.set file content }
            else none
  | .receive fd, .failed true =>
      (k.fileOf p fd).bind fun file => if k.content file = [] then some k else none
  | _, .failed _ => some k
  | _, _ => none

/-- **What a system call can do**, case by case. -/
inductive Effect (p : P) (k : Kernel P) : KernelCall → KernelReply → Kernel P → Prop
  | unlink (queue : Bool) (r : KernelReply) : Effect p k (.unlink queue) r k.remove
  | unlinkFails (queue again : Bool) (hname : k.name.linked ≠ none) :
      Effect p k (.unlink queue) (.failed again) k
  | makeFifo (hname : k.name.linked = none) :
      Effect p k .makeFifo (.value 0) { k with name := (k.name.create []).2 }
  | openFile (fd file : ℕ) (hname : k.name.linked = some file) :
      Effect p k .openFile (.value fd) (k.acquireName p fd file)
  | openQueue (fd : ℕ) :
      Effect p k .openQueue (.value fd)
        (acquireName { k with name := (k.name.create []).2 } p fd (k.name.create []).1)
  | socket (fd : ℕ) : Effect p k .socket (.value fd) (k.acquire p fd none)
  | bind (fd : ℤ) (hname : k.name.linked = none) :
      Effect p k (.bind fd) (.value 0) { k with
        name := (k.name.create []).2
        fileOf := Function.update k.fileOf p
          (Function.update (k.fileOf p) fd (some (k.name.create []).1))
        receiver := some (p, fd) }
  | close (fd : ℤ) (r : KernelReply) : Effect p k (.close fd) r (k.release p fd)
  | send (fd : ℤ) (bytes : List UInt8) (file : ℕ) (hfile : k.fileOf p fd = some file) :
      Effect p k (.send fd bytes) (.value bytes.length) (k.deliver p file bytes)
  | sendTo (fd : ℤ) (bytes : List UInt8) (file : ℕ) (hname : k.name.linked = some file)
      (hreceiver : (k.receiver.bind fun (q, fd) => k.fileOf q fd) = some file) :
      Effect p k (.sendTo fd bytes) (.value bytes.length) (k.deliver p file bytes)
  | readBytes (fd : ℤ) (count file : ℕ) (hfile : k.fileOf p fd = some file)
      (hsome : (k.content file).flatten.take count = [] → count = 0) :
      Effect p k (.readBytes fd count) (.bytes ((k.content file).flatten.take count))
        { k with name := k.name.set file [(k.content file).flatten.drop count] }
  | readNothing (fd : ℤ) (count file : ℕ) (hfile : k.fileOf p fd = some file)
      (hempty : (k.content file).flatten = []) (hcount : count ≠ 0) :
      Effect p k (.readBytes fd count) (.failed true) k
  | receive (fd : ℤ) (file : ℕ) (message : List UInt8) (rest : List (List UInt8))
      (hfile : k.fileOf p fd = some file) (hcontent : k.content file = message :: rest) :
      Effect p k (.receive fd) (.bytes (message.take bufferSize))
        { k with name := k.name.set file rest }
  | receiveNothing (fd : ℤ) (file : ℕ) (hfile : k.fileOf p fd = some file)
      (hempty : k.content file = []) : Effect p k (.receive fd) (.failed true) k
  /-- Nothing has happened. -/
  | failed (c : KernelCall) (again : Bool) (hunlink : ∀ queue, c ≠ .unlink queue)
      (hclose : ∀ fd, c ≠ .close fd) (hread : ∀ fd count, c = .readBytes fd count → again = false)
      (hreceive : ∀ fd, c = .receive fd → again = false) : Effect p k c (.failed again) k

theorem effect_of_answer {p : P} {k k' : Kernel P} {c : KernelCall} {r : KernelReply}
    (h : k.answer p c r = some k') : Effect p k c r k' := by
  unfold answer at h
  split at h
  · split at h
    · cases h
    · cases h
      exact .unlink _ _
  · cases h
    split
    · exact .unlink _ _
    · rename_i hname
      exact .unlinkFails _ _ hname
  · split at h
    · rename_i hname
      cases h
      exact .makeFifo hname
    · cases h
  · obtain ⟨file, hname, rfl⟩ := Option.map_eq_some_iff.mp h
    exact .openFile _ file hname
  · cases h
    exact .openQueue _
  · cases h
    exact .socket _
  · split at h
    · rename_i hname
      cases h
      exact .bind _ hname
    · cases h
  · cases h
    exact .close _ _
  · cases h
    exact .close _ _
  · split at h
    · rename_i hlen
      subst hlen
      obtain ⟨file, hfile, rfl⟩ := Option.map_eq_some_iff.mp h
      exact .send _ _ file hfile
    · cases h
  · rw [Option.bind_eq_some_iff] at h
    obtain ⟨file, hname, h⟩ := h
    split at h
    · rename_i hlen
      obtain ⟨rfl, hreceiver⟩ := hlen
      cases h
      exact .sendTo _ _ file hname hreceiver
    · cases h
  · rw [Option.bind_eq_some_iff] at h
    obtain ⟨file, hfile, h⟩ := h
    dsimp only at h
    split at h
    · rename_i hbytes
      obtain ⟨rfl, hsome⟩ := hbytes
      cases h
      exact .readBytes _ _ file hfile hsome
    · cases h
  · rw [Option.bind_eq_some_iff] at h
    obtain ⟨file, hfile, h⟩ := h
    split at h
    · rename_i hempty
      cases h
      exact .readNothing _ _ file hfile hempty.1 hempty.2
    · cases h
  · rw [Option.bind_eq_some_iff] at h
    obtain ⟨file, hfile, h⟩ := h
    split at h
    · cases h
    · rename_i message rest hcontent
      split at h
      · rename_i hbytes
        subst hbytes
        cases h
        exact .receive _ file message rest hfile hcontent
      · cases h
  · rw [Option.bind_eq_some_iff] at h
    obtain ⟨file, hfile, h⟩ := h
    split at h
    · rename_i hempty
      cases h
      exact .receiveNothing _ file hfile hempty
    · cases h
  · -- the cases before have been about all other failures
    rename_i again hunlink hclose hread hreceive
    cases h
    refine .failed _ _ hunlink hclose ?_ ?_
    · intro fd count hc
      cases again with
      | true => exact absurd rfl (hread fd count hc)
      | false => rfl
    · intro fd hc
      cases again with
      | true => exact absurd rfl (hreceive fd hc)
      | false => rfl
  · cases h

/-- **The failures a handler cannot cope with are left out**: `mq_unlink` leaves a queue with its old
messages, or a pipe cannot be read, other than for want of data, when its header may be gone. -/
def Harmless (k : Kernel P) : KernelCall → KernelReply → Prop
  | .unlink true, .failed _ => k.name.linked = none
  | .readBytes _ _, .failed again => again = true
  | _, _ => True

omit [DecidableEq P] in
theorem harmless_of_ne {k : Kernel P} {c : KernelCall} {r : KernelReply}
    (h : ∀ again, r ≠ .failed again) : k.Harmless c r := by
  unfold Harmless
  split
  · exact absurd rfl (h _)
  · exact absurd rfl (h _)
  · trivial

end Kernel

/-! ## Programs of the handlers -/

/-- A program of system calls. -/
abbrev KernelProgram (α : Type) : Type := Program KernelCall KernelReply α

/-- The body of every `write` that sends from `buffer_` with one system call: whether that succeeds, the
bytes of `buffer_`, and the new `last_id_`. -/
def sendProgram (isOpen : Bool) (buffer : Memory UInt8) (lastId : UInt32) (o : DataObject)
    (timestamp : Int64) (sendCall : List UInt8 → KernelCall) :
    KernelProgram (Bool × Memory UInt8 × UInt32) :=
  if isOpen then
    match assemble buffer lastId o timestamp with
    | (buffer, none) => .ret (false, buffer, lastId)
    | (buffer, some (lastId, size)) =>
        .call (sendCall (buffer.read 0 (DataHeader.headerSize + size))) fun res =>
          .ret (res.status ≠ -1, buffer, lastId)
  else .ret (false, buffer, lastId)

/-- What has become of a message, by what the call that sends it returns. -/
def SendOutcome.ofReply (reply : KernelReply) : SendOutcome :=
  if reply.status = -1 then fail else accept bufferSize

/-- With a reply to its system call, the program does what `bufferedWrite` does. -/
theorem value_sendProgram (isOpen : Bool) (buffer : Memory UInt8) (lastId : UInt32) (o : DataObject)
    (timestamp : Int64) (sendCall : List UInt8 → KernelCall) (reply : KernelReply) :
    (sendProgram isOpen buffer lastId o timestamp sendCall).value (fun _ => reply) =
      let call := bufferedWrite isOpen buffer lastId o timestamp (.ofReply reply)
      (call.result, call.buffer, call.lastId) := by
  unfold sendProgram bufferedWrite
  split
  · rcases assemble buffer lastId o timestamp with ⟨buffer', _ | ⟨lastId', size⟩⟩
    · rfl
    · by_cases hfails : reply.status = -1
      · simp [Program.value, SendOutcome.ofReply, hfails]
      · simp [Program.value, SendOutcome.ofReply, hfails]
  · rfl

namespace Fifo

/-- The second half of `Fifo::open`: the pipe is opened, and if that fails a reader removes it again. -/
def openPipe (readonly : Bool) (fifo : Fifo) : KernelProgram (Bool × Fifo) :=
  .call .openFile fun res =>
    let fifo := { fifo with fd := res.status }
    if fifo.fd = -1 then
      if readonly then .call (.unlink false) fun _ => .ret (false, fifo) else .ret (false, fifo)
    else .ret (true, fifo)

/-- `Fifo::open`. -/
def openHandler (readonly : Bool) (fifo : Fifo) : KernelProgram (Bool × Fifo) :=
  if fifo.fd ≠ -1 then .ret (true, fifo)
  else if readonly then
    .call (.unlink false) fun _ => .call .makeFifo fun res =>
      if res.status = -1 then .ret (false, fifo) else openPipe readonly fifo
  else openPipe readonly fifo

/-- `Fifo::close`. -/
def closeHandler (readonly : Bool) (fifo : Fifo) : KernelProgram (Bool × Fifo) :=
  if fifo.fd = -1 then .ret (false, fifo)
  else
    .call (.close fifo.fd) fun _ =>
      if readonly then .call (.unlink false) fun _ => .ret (true, { fifo with fd := -1 })
      else .ret (true, { fifo with fd := -1 })

/-- `Fifo::write`. -/
def writeProgram (fifo : Fifo) (o : DataObject) (timestamp : Int64) : KernelProgram (Bool × Fifo) :=
  (sendProgram (fifo.fd ≠ -1) fifo.buffer fifo.lastId o timestamp (.send fifo.fd)).bind
    fun (result, buffer, lastId) => .ret (result, { fifo with buffer, lastId })

/-- It is `Fifo::write`, apart from what happens in between. -/
theorem value_writeProgram (fifo : Fifo) (o : DataObject) (timestamp : Int64) (reply : KernelReply) :
    (fifo.writeProgram o timestamp).value (fun _ => reply) =
      let call := fifo.write o timestamp (.ofReply reply)
      (call.result, { fifo with buffer := call.buffer, lastId := call.lastId }) := by
  rw [writeProgram, Program.value_bind, value_sendProgram]
  rfl

/-- `Fifo::read`, with the two parts it is made of. -/
def readProgram (fifo : Fifo) : KernelProgram (Except Fault ReadResult × Fifo) :=
  if fifo.fd = -1 then .ret (.ok (.error .connectionClosed), fifo)
  else
    .call (.readBytes fifo.fd DataHeader.headerSize) fun res =>
      match fifo.readHeader res.stream with
      | (.returned outcome, buffer, _) => .ret (outcome, { fifo with buffer })
      | (.goesOn header, buffer, _) =>
          .call (.readBytes fifo.fd header.bodySize.toNat) fun res =>
            let call := readBody header buffer res.stream
            .ret (call.outcome, { fifo with buffer := call.buffer })

end Fifo

namespace MessageQueue

/-- The second half of `MessageQueue::open`. -/
def openQueue (readonly : Bool) (queue : MessageQueue) : KernelProgram (Bool × MessageQueue) :=
  .call .openQueue fun res =>
    let queue := { queue with mqd := res.status }
    if queue.mqd = -1 then
      if readonly then .call (.unlink true) fun _ => .ret (false, queue) else .ret (false, queue)
    else .ret (true, queue)

/-- `MessageQueue::open`. -/
def openHandler (readonly : Bool) (queue : MessageQueue) : KernelProgram (Bool × MessageQueue) :=
  if queue.mqd ≠ -1 then .ret (true, queue)
  -- clear old messages
  else if readonly then .call (.unlink true) fun _ => openQueue readonly queue
  else openQueue readonly queue

/-- `MessageQueue::close`. -/
def closeHandler (readonly : Bool) (queue : MessageQueue) : KernelProgram (Bool × MessageQueue) :=
  if queue.mqd = -1 then .ret (false, queue)
  else
    .call (.close queue.mqd) fun _ =>
      if readonly then .call (.unlink true) fun _ => .ret (true, { queue with mqd := -1 })
      else .ret (true, { queue with mqd := -1 })

/-- `MessageQueue::write`. -/
def writeProgram (queue : MessageQueue) (o : DataObject) (timestamp : Int64) :
    KernelProgram (Bool × MessageQueue) :=
  (sendProgram (queue.mqd ≠ -1) queue.buffer queue.lastId o timestamp (.send queue.mqd)).bind
    fun (result, buffer, lastId) => .ret (result, { queue with buffer, lastId })

/-- It is `MessageQueue::write`, apart from what happens in between. -/
theorem value_writeProgram (queue : MessageQueue) (o : DataObject) (timestamp : Int64)
    (reply : KernelReply) :
    (queue.writeProgram o timestamp).value (fun _ => reply) =
      let call := queue.write o timestamp (.ofReply reply)
      (call.result, { queue with buffer := call.buffer, lastId := call.lastId }) := by
  rw [writeProgram, Program.value_bind, value_sendProgram]
  rfl

/-- `MessageQueue::read`. -/
def readProgram (queue : MessageQueue) : KernelProgram (Except Fault ReadResult × MessageQueue) :=
  if queue.mqd = -1 then .ret (.ok (.error .connectionClosed), queue)
  else
    .call (.receive queue.mqd) fun res =>
      let (outcome, buffer) := queue.read res.event
      .ret (outcome, { queue with buffer })

end MessageQueue

namespace DatagramSocket

/-- `DatagramSocket::close`, for a local socket. -/
def closeHandler (server : Bool) (socket : DatagramSocket) : KernelProgram (Bool × DatagramSocket) :=
  if socket.sfd = -1 then .ret (false, socket)
  else
    .call (.close socket.sfd) fun _ =>
      if server then .call (.unlink false) fun _ => .ret (true, { socket with sfd := -1 })
      else .ret (true, { socket with sfd := -1 })

/-- `DatagramSocket::create_server`, for a local socket: its address can always be built. -/
def createServer (socket : DatagramSocket) : KernelProgram (Bool × DatagramSocket) :=
  .call .socket fun res =>
    let socket := { socket with sfd := res.status }
    if socket.sfd = -1 then .ret (false, socket)
    else
      .call (.unlink false) fun _ => .call (.bind socket.sfd) fun res =>
        .ret (res.status ≠ -1, socket)

/-- `DatagramSocket::create_client`, likewise. -/
def createClient (socket : DatagramSocket) : KernelProgram (Bool × DatagramSocket) :=
  .call .socket fun res =>
    let socket := { socket with sfd := res.status }
    .ret (socket.sfd ≠ -1, socket)

/-- `DatagramSocket::open`. -/
def openHandler (server : Bool) (socket : DatagramSocket) : KernelProgram (Bool × DatagramSocket) :=
  if socket.sfd ≠ -1 then .ret (true, socket)
  else
    (if server then socket.createServer else socket.createClient).bind fun (created, socket) =>
      if created then .ret (true, socket)
      else (socket.closeHandler server).bind fun (_, socket) => .ret (false, socket)

/-- `DatagramSocket::write`, for a local socket. -/
def writeProgram (socket : DatagramSocket) (o : DataObject) (timestamp : Int64) :
    KernelProgram (Bool × DatagramSocket) :=
  (sendProgram (socket.sfd ≠ -1) socket.buffer socket.lastId o timestamp (.sendTo socket.sfd)).bind
    fun (result, buffer, lastId) => .ret (result, { socket with buffer, lastId })

/-- It is `DatagramSocket::write`, apart from what happens in between. -/
theorem value_writeProgram (socket : DatagramSocket) (o : DataObject) (timestamp : Int64)
    (reply : KernelReply) :
    (socket.writeProgram o timestamp).value (fun _ => reply) =
      let call := socket.write o timestamp (.ofReply reply)
      (call.result, { socket with buffer := call.buffer, lastId := call.lastId }) := by
  rw [writeProgram, Program.value_bind, value_sendProgram]
  rfl

/-- `DatagramSocket::read`. -/
def readProgram (socket : DatagramSocket) :
    KernelProgram (Except Fault ReadResult × DatagramSocket) :=
  if socket.sfd = -1 then .ret (.ok (.error .connectionClosed), socket)
  else
    .call (.receive socket.sfd) fun res =>
      let (outcome, buffer) := socket.read res.event
      .ret (outcome, { socket with buffer })

end DatagramSocket

/-! ## The three classes -/

/-- A class of handlers that meet at a name. -/
structure NamedClass where
  /-- The fields of a handler. -/
  Handler : Type
  /-- The descriptor, `-1` when it is not open. -/
  descriptor : Handler → ℤ
  /-- Id of the last message written. -/
  lastId : Handler → UInt32
  /-- `open`, for a reader or for a writer. -/
  openHandler : Bool → Handler → KernelProgram (Bool × Handler)
  /-- `close`. -/
  closeHandler : Bool → Handler → KernelProgram (Bool × Handler)
  /-- `write`. -/
  write : Handler → DataObject → Int64 → KernelProgram (Bool × Handler)
  /-- `read`. -/
  read : Handler → KernelProgram (Except Fault ReadResult × Handler)

/-- Pipes. -/
def Fifo.named : NamedClass :=
  ⟨Fifo, Fifo.fd, Fifo.lastId, openHandler, closeHandler, writeProgram, readProgram⟩

/-- Message queues. -/
def MessageQueue.named : NamedClass :=
  ⟨MessageQueue, MessageQueue.mqd, MessageQueue.lastId, openHandler, closeHandler, writeProgram,
    readProgram⟩

/-- Local datagram sockets. -/
def DatagramSocket.named : NamedClass :=
  ⟨DatagramSocket, DatagramSocket.sfd, DatagramSocket.lastId, openHandler, closeHandler, writeProgram,
    readProgram⟩

/-- The three classes. -/
inductive NamedKind
  | fifo
  | queue
  | datagram
  deriving DecidableEq

/-- The class of a kind. -/
def NamedKind.named : NamedKind → NamedClass
  | fifo => Fifo.named
  | queue => MessageQueue.named
  | datagram => DatagramSocket.named

/-! ## Handlers that are used at the same time -/

/-- A call of a method. -/
inductive NamedJob
  | openHandler
  | closeHandler
  | destroy
  | write (o : DataObject) (timestamp : Int64)
  | read

/-- What a method has returned. -/
inductive NamedResult
  | opened (success : Bool)
  | closed (success : Bool)
  | destroyed
  | written (accepted : Bool)
  | read (outcome : Except Fault ReadResult)

namespace NamedClass

/-- A handler, and what it has been used for. -/
structure Party (c : NamedClass) where
  /-- The handler. -/
  handler : c.Handler
  /-- The messages `read` has returned since the handler was opened. -/
  inbox : List (DataHeader × DataObject)
  /-- The messages for which `write` has returned true. -/
  outbox : List (DataHeader × DataObject)
  /-- What its last method has returned. -/
  last : Option NamedResult

variable (c : NamedClass)

/-- The destructor: a handler that is open is closed. -/
def destroy (readonly : Bool) (h : c.Handler) : KernelProgram c.Handler :=
  if c.descriptor h ≠ -1 then (c.closeHandler readonly h).bind fun r => .ret r.2 else .ret h

/-- The message a call of `read` has returned. -/
def messageOf : Except Fault ReadResult → List (DataHeader × DataObject)
  | .ok (.ok m) => [m]
  | _ => []

/-- A method of a handler. -/
def method (readonly : Bool) (s : c.Party) : NamedJob → KernelProgram c.Party
  | .openHandler =>
      (c.openHandler readonly s.handler).bind fun (success, handler) =>
        .ret { s with
          handler
          inbox := if c.descriptor s.handler = -1 then [] else s.inbox
          last := some (.opened success) }
  | .closeHandler =>
      (c.closeHandler readonly s.handler).bind fun (success, handler) =>
        .ret { s with handler, last := some (.closed success) }
  | .destroy =>
      (c.destroy readonly s.handler).bind fun handler =>
        .ret { s with handler, last := some .destroyed }
  | .write o timestamp =>
      (c.write s.handler o timestamp).bind fun (accepted, handler) =>
        .ret { s with
          handler
          outbox :=
            if accepted then s.outbox ++ [Channel.message (c.lastId handler) o timestamp] else s.outbox
          last := some (.written accepted) }
  | .read =>
      (c.read s.handler).bind fun (outcome, handler) =>
        .ret { s with handler, inbox := s.inbox ++ messageOf outcome, last := some (.read outcome) }

/-- Any number of handlers of the class with the same name; some are for reading. -/
def system {P : Type} [DecidableEq P] (readonly : P → Bool) :
    Parallel P (Kernel P) KernelCall KernelReply c.Party NamedJob where
  answer := Kernel.answer
  method p := c.method (readonly p)

/-- New handlers: the constructors only store name and role. -/
def start {P : Type} [DecidableEq P] (readonly : P → Bool) (handlers : P → c.Handler) :
    (c.system readonly).State :=
  ⟨.initial, fun p => .ret ⟨handlers p, [], [], none⟩⟩

end NamedClass

end IpcPerformance
