import IpcPerformance.Handler.DBus
import IpcPerformance.Handler.Fifo
import IpcPerformance.Handler.MessageBoundary
import IpcPerformance.Handler.SharedFile
import IpcPerformance.Handler.SharedMemoryCalls
import IpcPerformance.Handler.StreamSocket
import IpcPerformance.Handler.Transport

/-! # All transports agree

The seven handler classes, with sends that succeed in full, against the abstract queue. What the kernel
has room for is open. Two classes rely on others: UDP on a network that loses nothing, D-Bus on a bus that
delivers the calls and nothing else.

* `StreamSocket.transport`, … , `DBus.transport`, `RingCalls.transport` — the classes.
* `HandlerClass.agree_iff` — they all agree with the abstract queue on exactly the calls that write no
  object whose body alone fits the buffer: those D-Bus accepts, too. -/

namespace IpcPerformance

/-! ## Handlers that send the start of their buffer -/

/-- Messages as the writers put them together. -/
def AllMessages (queue : List (DataHeader × DataObject)) : Prop := ∀ m ∈ queue, IsMessage m

theorem allMessages_nil : AllMessages [] := by
  intro m hm
  cases hm

/-- The next message is one of the writers. -/
theorem AllMessages.concat {queue : List (DataHeader × DataObject)} (h : AllMessages queue)
    (id : UInt32) {o : DataObject} (hfits : o.Fits) (timestamp : Int64) :
    AllMessages (queue ++ [Channel.message id o timestamp]) := by
  intro m hm
  rcases List.mem_append.mp hm with hm | hm
  · exact h m hm
  · rw [List.mem_singleton.mp hm]
    exact ⟨hfits, id, timestamp, rfl⟩

/-- A full send of an object that fits sends its message. -/
theorem bufferedWrite_whole (buffer : Memory UInt8) (lastId : UInt32) {o : DataObject}
    (timestamp : Int64) (h : o.Fits) :
    ∃ buffer', bufferedWrite true buffer lastId o timestamp (.accept bufferSize) =
      ⟨true, buffer', lastId + 1, imageOf (Channel.message (lastId + 1) o timestamp)⟩ := by
  obtain ⟨buffer', hwrite⟩ :=
    bufferedWrite_of_le buffer lastId o timestamp (.accept bufferSize) h
  refine ⟨buffer', ?_⟩
  have hfits : DataHeader.headerSize + o.bodySize ≤ bufferSize := h
  have hall : SendOutcome.accepted (DataHeader.headerSize + o.bodySize) (.accept bufferSize) =
      (messageImage (outgoingHeader (lastId + 1) o o.bodySize timestamp) o).length := by
    rw [length_messageImage]
    exact min_eq_right (by omega)
  rw [hwrite, hall, List.take_length]
  rfl

/-- A stream socket. -/
def StreamSocket.transport : Transport where
  Handler := StreamSocket
  Carrier := List UInt8
  Start client server bytes :=
    (client.sfd ≠ -1 ∧ client.lastId = 0) ∧ server.cfd ≠ -1 ∧ bytes = []
  write client bytes o timestamp :=
    let call := client.write o timestamp (.accept bufferSize)
    some (call.result, { client with buffer := call.buffer, lastId := call.lastId },
      bytes ++ call.sent)
  read server bytes :=
    let call := server.read ⟨StreamEvent.push bytes [], false⟩
    (call.outcome, { server with buffer := call.buffer }, call.stream.pending)

/-- A pipe. -/
def Fifo.transport : Transport where
  Handler := Fifo
  Carrier := List UInt8
  Start client server bytes :=
    (client.fd ≠ -1 ∧ client.lastId = 0) ∧ server.fd ≠ -1 ∧ bytes = []
  write client bytes o timestamp :=
    let call := client.write o timestamp (.accept bufferSize)
    some (call.result, { client with buffer := call.buffer, lastId := call.lastId },
      bytes ++ call.sent)
  read server bytes :=
    let call := server.read ⟨StreamEvent.push bytes [], false⟩
    (call.outcome, { server with buffer := call.buffer }, call.stream.pending)

/-- What the kernel reports of the messages in a queue, and the messages behind. -/
def nextEvent : List (List UInt8) → BoundaryEvent × List (List UInt8)
  | [] => (.again, [])
  | bytes :: queue => (.message bytes, queue)

/-- What becomes of a datagram. -/
inductive DatagramRoute
  /-- A local socket: so many datagrams wait in the kernel. -/
  | unix (limit : ℕ) (limit_pos : 0 < limit)
  /-- UDP: what is on its way after another datagram. -/
  | udp (deliver : List (List UInt8) → List UInt8 → List (List UInt8))

namespace DatagramRoute

/-- Whether it is that of a local socket. -/
def isUnix : DatagramRoute → Bool
  | unix _ _ => true
  | udp _ => false

/-- What is on its way after another datagram. -/
def deliver : DatagramRoute → List (List UInt8) → List UInt8 → List (List UInt8)
  | unix _ _ => fun queue bytes => queue ++ [bytes]
  | udp deliver => deliver

/-- Nothing is lost, repeated or overtaken. Of local sockets this is so. -/
def LossFree (route : DatagramRoute) : Prop := ∀ queue bytes, route.deliver queue bytes = queue ++ [bytes]

/-- What can be on its way: a local socket waits for room. -/
def room : DatagramRoute → List (List UInt8) → Bool
  | unix limit _ => fun queue => queue.length ≤ limit
  | udp _ => fun _ => true

/-- The same in messages. -/
def capacity : DatagramRoute → Capacity
  | unix limit limit_pos => .messages limit limit_pos
  | udp _ => .unlimited

end DatagramRoute

/-- A datagram socket, on a route that loses nothing. -/
def DatagramSocket.transport (route : DatagramRoute) : Transport where
  Handler := DatagramSocket
  Carrier := List (List UInt8)
  Start client server queue :=
    (client.sfd ≠ -1 ∧ client.lastId = 0) ∧ server.sfd ≠ -1 ∧ queue = [] ∧
      client.unix = route.isUnix ∧ server.unix = route.isUnix ∧ route.LossFree
  write client queue o timestamp :=
    let call := client.write o timestamp (.accept bufferSize)
    some (call.result, { client with buffer := call.buffer, lastId := call.lastId },
      if call.result then route.deliver queue call.sent else queue)
  read server queue :=
    let (event, queue) := nextEvent queue
    let (outcome, buffer) := server.read event
    (outcome, { server with buffer }, queue)

/-- A message queue. -/
def MessageQueue.transport : Transport where
  Handler := MessageQueue
  Carrier := List (List UInt8)
  Start client server queue :=
    (client.mqd ≠ -1 ∧ client.lastId = 0) ∧ server.mqd ≠ -1 ∧ queue = []
  write client queue o timestamp :=
    let call := client.write o timestamp (.accept bufferSize)
    some (call.result, { client with buffer := call.buffer, lastId := call.lastId },
      if call.result then queue ++ [call.sent] else queue)
  read server queue :=
    let (event, queue) := nextEvent queue
    let (outcome, buffer) := server.read event
    (outcome, { server with buffer }, queue)

/-! ## Readers of messages -/

/-- The body of a message decodes to its object. -/
theorem IsMessage.readResult_eq {m : DataHeader × DataObject} (hm : IsMessage m) :
    readResult m.1 (DataObject.ofImage m.1.type m.2.image) = .ok m := by
  obtain ⟨header, o⟩ := m
  obtain ⟨hfits, id, timestamp, hheader⟩ := hm
  simp only at hheader hfits
  subst hheader
  have hresult := readResult_image id o timestamp [] hfits
  rwa [List.append_nil] at hresult

/-- The header of a message says how long its body is. -/
theorem IsMessage.toNat_bodySize {m : DataHeader × DataObject} (hm : IsMessage m) :
    m.1.bodySize.toNat = m.2.image.length := by
  obtain ⟨hfits, id, timestamp, hheader⟩ := hm
  rw [hheader]
  exact toNat_bodySize_eq_length id m.2 timestamp hfits

/-- The header and the body of a message. -/
theorem imageOf_eq (m : DataHeader × DataObject) : imageOf m = m.1.image ++ m.2.image := rfl

theorem take_imageOf_append (m : DataHeader × DataObject) (rest : List UInt8) :
    (imageOf m ++ rest).take DataHeader.headerSize = m.1.image := by
  rw [imageOf_eq, List.append_assoc, List.take_left' m.1.length_image]

theorem drop_imageOf_append (m : DataHeader × DataObject) (rest : List UInt8) :
    (imageOf m ++ rest).drop DataHeader.headerSize = m.2.image ++ rest := by
  rw [imageOf_eq, List.append_assoc, List.drop_left' m.1.length_image]

theorem imageOf_append_ne_nil (m : DataHeader × DataObject) (rest : List UInt8) :
    imageOf m ++ rest ≠ [] := by
  intro h
  have hlen := congrArg List.length h
  rw [List.length_append, length_imageOf, DataHeader.headerSize, List.length_nil] at hlen
  omega

/-- The bytes of a message are a well-formed message. -/
theorem IsMessage.wellFormed {m : DataHeader × DataObject} (hm : IsMessage m) :
    WellFormed (imageOf m) := by
  have htake := take_imageOf_append m []
  rw [List.append_nil] at htake
  refine ⟨?_, ?_⟩
  · rw [length_imageOf]
    exact Nat.le_add_right _ _
  · rw [htake, DataHeader.ofImage_image, hm.toNat_bodySize, length_imageOf, DataObject.length_image,
      Nat.add_sub_cancel_left]

/-- It is decoded to what it was. -/
theorem IsMessage.messageResult_eq {m : DataHeader × DataObject} (hm : IsMessage m) :
    messageResult (imageOf m) = .ok m := by
  have htake := take_imageOf_append m []
  have hdrop := drop_imageOf_append m []
  rw [List.append_nil] at htake hdrop
  rw [List.append_nil] at hdrop
  rw [messageResult, htake, hdrop, DataHeader.ofImage_image]
  exact hm.readResult_eq

/-! ## Streams -/

/-- What is on its way in a stream. -/
def CarriesStream (bytes : List UInt8) (queue : List (DataHeader × DataObject)) : Prop :=
  bytes = streamBytes queue ∧ AllMessages queue

/-- A message sent is carried behind the others. -/
theorem CarriesStream.concat {bytes : List UInt8} {queue : List (DataHeader × DataObject)}
    (h : CarriesStream bytes queue) (id : UInt32) {o : DataObject} (hfits : o.Fits)
    (timestamp : Int64) :
    CarriesStream (bytes ++ imageOf (Channel.message id o timestamp))
      (queue ++ [Channel.message id o timestamp]) := by
  refine ⟨?_, h.2.concat id hfits timestamp⟩
  rw [h.1, streamBytes, streamBytes, List.flatMap_append, List.flatMap_singleton]

/-- The stream of bytes that have all arrived, of which there are some, does not block. -/
theorem recv_push_ne_again {bytes : List UInt8} (h : bytes ≠ []) (n : ℕ) (next : ByteStream) :
    ByteStream.recv ⟨StreamEvent.push bytes [], false⟩ n ≠ (.again, next) := by
  cases bytes with
  | nil => exact absurd rfl h
  | cons b bs =>
      intro hrecv
      cases hrecv

theorem pending_push (bytes : List UInt8) (closed : Bool) :
    ByteStream.pending ⟨StreamEvent.push bytes [], closed⟩ = bytes := by
  rw [ByteStream.pending, StreamEvent.carried_push, StreamEvent.carried_nil, List.append_nil]

theorem reliable_push (bytes : List UInt8) (closed : Bool) :
    ByteStream.Reliable ⟨StreamEvent.push bytes [], closed⟩ := by
  cases bytes <;> simp [ByteStream.Reliable, StreamEvent.push]

/-- Stream sockets deliver. -/
def StreamSocket.delivers : StreamSocket.transport.Delivers fun _ => True where
  Writes client id := client.sfd ≠ -1 ∧ client.lastId = id
  Reads server := server.cfd ≠ -1
  Carries := CarriesStream
  start := by
    rintro client server bytes ⟨hclient, hserver, rfl⟩
    exact ⟨hclient, hserver, rfl, allMessages_nil⟩
  write_of_fits := by
    rintro client id bytes queue ⟨hopen, rfl⟩ hcarries o hfits timestamp
    obtain ⟨buffer, hwrite⟩ := bufferedWrite_whole client.buffer client.lastId timestamp hfits
    refine ⟨{ client with buffer, lastId := client.lastId + 1 }, _, ?_, ⟨hopen, rfl⟩,
      hcarries.concat (client.lastId + 1) hfits timestamp⟩
    simp only [transport, write, decide_eq_true hopen, hwrite]
  write_of_not_fits := by
    rintro client id bytes ⟨hopen, rfl⟩ o hfits - timestamp
    refine ⟨client, ?_, hopen, rfl⟩
    simp only [transport, write, decide_eq_true hopen, bufferedWrite_of_lt _ _ _ _ _ hfits]
    exact congrArg (fun rest => some (false, client, rest)) (List.append_nil bytes)
  read_nil := by
    rintro server bytes hopen ⟨rfl, hall⟩
    obtain ⟨calls, hread⟩ := read_of_again hopen
      (show ByteStream.recv ⟨[], false⟩ DataHeader.headerSize = (.again, ⟨[], false⟩) from rfl)
    refine ⟨server, [], ?_, hopen, rfl, hall⟩
    simp only [transport, streamBytes, List.flatMap_nil, StreamEvent.push, hread]
    rfl
  read_cons := by
    rintro server bytes m queue hopen ⟨rfl, hall⟩
    obtain ⟨hm, hall⟩ := List.forall_mem_cons.mp hall
    have hbytes : streamBytes (m :: queue) = imageOf m ++ streamBytes queue := List.flatMap_cons
    have hpending : ByteStream.pending ⟨StreamEvent.push (streamBytes (m :: queue)) [], false⟩ =
        m.1.image ++ (m.2.image ++ streamBytes queue) := by
      rw [pending_push, hbytes, imageOf_eq, List.append_assoc]
    have hne : streamBytes (m :: queue) ≠ [] := by
      rw [hbytes]
      exact imageOf_append_ne_nil m _
    obtain ⟨buffer, next, calls, hread, hnext, -⟩ := read_of_frame hopen (reliable_push _ _)
      (recv_push_ne_again hne _) hm.toNat_bodySize hpending
    refine ⟨{ server with buffer }, streamBytes queue, ?_, hopen, rfl, hall⟩
    simp only [transport, hread, hnext, hm.readResult_eq]

/-- The body of a frame is taken off the front of a pipe in one piece. -/
theorem Fifo.readBody_of_push {header : DataHeader} (buffer : Memory UInt8) {body : List UInt8}
    (rest : List UInt8) (hsize : header.bodySize.toNat = body.length) :
    ∃ buffer' next calls, readBody header buffer ⟨StreamEvent.push (body ++ rest) [], false⟩ =
        ⟨.ok (readResult header (DataObject.ofImage header.type body)), buffer', next, calls⟩ ∧
      next.pending = rest := by
  have hpipe : ∃ next, pipeRead ⟨StreamEvent.push (body ++ rest) [], false⟩ body.length =
      (.bytes body, next) ∧ next.pending = rest := by
    cases body with
    | nil => exact ⟨_, rfl, pending_push rest false⟩
    -- a read of no bytes does not look at the pipe, any other one takes the body
    | cons b bs =>
        refine ⟨⟨StreamEvent.push rest [], false⟩, ?_, pending_push rest false⟩
        have hdrop : (b :: (bs ++ rest)).drop (b :: bs).length = rest :=
          List.drop_left
        have htake : (b :: (bs ++ rest)).take (b :: bs).length = b :: bs :=
          List.take_left
        rw [pipeRead, if_neg (by simp), List.cons_append, StreamEvent.push, ByteStream.recv]
        simp only [hdrop, htake]
  obtain ⟨next, hpipe, hpending⟩ := hpipe
  refine ⟨buffer.write 0 body, next, [⟨0, header.bodySize.toNat⟩], ?_, hpending⟩
  simp only [readBody, hsize, hpipe, if_true, deserializeDataObject_eq, Memory.read_write]

/-- Pipes deliver. -/
def Fifo.delivers : Fifo.transport.Delivers fun _ => True where
  Writes client id := client.fd ≠ -1 ∧ client.lastId = id
  Reads server := server.fd ≠ -1
  Carries := CarriesStream
  start := by
    rintro client server bytes ⟨hclient, hserver, rfl⟩
    exact ⟨hclient, hserver, rfl, allMessages_nil⟩
  write_of_fits := by
    rintro client id bytes queue ⟨hopen, rfl⟩ hcarries o hfits timestamp
    obtain ⟨buffer, hwrite⟩ := bufferedWrite_whole client.buffer client.lastId timestamp hfits
    refine ⟨{ client with buffer, lastId := client.lastId + 1 }, _, ?_, ⟨hopen, rfl⟩,
      hcarries.concat (client.lastId + 1) hfits timestamp⟩
    simp only [transport, write, decide_eq_true hopen, hwrite]
  write_of_not_fits := by
    rintro client id bytes ⟨hopen, rfl⟩ o hfits - timestamp
    refine ⟨client, ?_, hopen, rfl⟩
    simp only [transport, write, decide_eq_true hopen, bufferedWrite_of_lt _ _ _ _ _ hfits]
    exact congrArg (fun rest => some (false, client, rest)) (List.append_nil bytes)
  read_nil := by
    rintro server bytes hopen ⟨rfl, hall⟩
    refine ⟨server, [], ?_, hopen, rfl, hall⟩
    simp only [transport, streamBytes, List.flatMap_nil, StreamEvent.push, read, if_neg hopen]
    rfl
  read_cons := by
    rintro server bytes m queue hopen ⟨rfl, hall⟩
    obtain ⟨hm, hall⟩ := List.forall_mem_cons.mp hall
    have hbytes : streamBytes (m :: queue) = imageOf m ++ streamBytes queue := List.flatMap_cons
    -- the first read takes the header, the second one the body
    obtain ⟨b, bs, hcons⟩ := List.exists_cons_of_ne_nil (imageOf_append_ne_nil m (streamBytes queue))
    have hlen : DataHeader.headerSize ≤ (b :: bs).length := by
      rw [← hcons, List.length_append, length_imageOf]
      omega
    have hread := read_of_segment hopen [] false hlen
    rw [← hcons, take_imageOf_append, drop_imageOf_append, DataHeader.ofImage_image] at hread
    obtain ⟨buffer, next, calls, hbody, hnext⟩ := readBody_of_push
      (server.buffer.write 0 m.1.image) (streamBytes queue) hm.toNat_bodySize
    rw [hbody] at hread
    refine ⟨{ server with buffer }, streamBytes queue, ?_, hopen, rfl, hall⟩
    simp only [transport, hbytes, hcons, StreamEvent.push, hread, ReadCall.after, hnext,
      hm.readResult_eq]

/-! ## Messages kept apart -/

/-- What is on its way when the kernel keeps messages apart. -/
def CarriesMessages (images : List (List UInt8)) (queue : List (DataHeader × DataObject)) : Prop :=
  images = queue.map imageOf ∧ AllMessages queue

/-- A message sent is carried behind the others. -/
theorem CarriesMessages.concat {images : List (List UInt8)} {queue : List (DataHeader × DataObject)}
    (h : CarriesMessages images queue) (id : UInt32) {o : DataObject} (hfits : o.Fits)
    (timestamp : Int64) :
    CarriesMessages (images ++ [imageOf (Channel.message id o timestamp)])
      (queue ++ [Channel.message id o timestamp]) := by
  refine ⟨?_, h.2.concat id hfits timestamp⟩
  rw [h.1, List.map_append, List.map_singleton]

/-- Datagram sockets deliver. -/
def DatagramSocket.delivers (route : DatagramRoute) :
    (DatagramSocket.transport route).Delivers fun _ => True where
  Writes client id := (client.sfd ≠ -1 ∧ client.lastId = id) ∧ route.LossFree
  Reads server := server.sfd ≠ -1
  Carries := CarriesMessages
  start := by
    rintro client server images ⟨hclient, hserver, rfl, -, -, hroute⟩
    exact ⟨⟨hclient, hroute⟩, hserver, rfl, allMessages_nil⟩
  write_of_fits := by
    rintro client id images queue ⟨⟨hopen, rfl⟩, hroute⟩ hcarries o hfits timestamp
    obtain ⟨buffer, hwrite⟩ := bufferedWrite_whole client.buffer client.lastId timestamp hfits
    refine ⟨{ client with buffer, lastId := client.lastId + 1 }, _, ?_, ⟨⟨hopen, rfl⟩, hroute⟩,
      hcarries.concat (client.lastId + 1) hfits timestamp⟩
    simp only [transport, write, decide_eq_true hopen, hwrite]
    exact congrArg (fun images => some (true, _, images)) (hroute images _)
  write_of_not_fits := by
    rintro client id images ⟨⟨hopen, rfl⟩, hroute⟩ o hfits - timestamp
    refine ⟨client, ?_, ⟨hopen, rfl⟩, hroute⟩
    simp only [transport, write, decide_eq_true hopen, bufferedWrite_of_lt _ _ _ _ _ hfits]
    rfl
  read_nil := by
    rintro server images hopen ⟨rfl, hall⟩
    refine ⟨server, [], ?_, hopen, rfl, hall⟩
    simp only [transport, List.map_nil, nextEvent, read, if_neg hopen]
    rfl
  read_cons := by
    rintro server images m queue hopen ⟨rfl, hall⟩
    obtain ⟨hm, hall⟩ := List.forall_mem_cons.mp hall
    refine ⟨{ server with buffer := server.buffer.write 0 (imageOf m) }, queue.map imageOf, ?_, hopen,
      rfl, hall⟩
    -- the datagram is not cut
    have htake : (imageOf m).take bufferSize = imageOf m := List.take_of_length_le hm.length_le
    simp only [transport, List.map_cons, nextEvent, read, if_neg hopen, htake,
      outcomeOf_of_wellFormed _ hm.length_le hm.wellFormed, hm.messageResult_eq]

/-- Message queues deliver. -/
def MessageQueue.delivers : MessageQueue.transport.Delivers fun _ => True where
  Writes client id := client.mqd ≠ -1 ∧ client.lastId = id
  Reads server := server.mqd ≠ -1
  Carries := CarriesMessages
  start := by
    rintro client server images ⟨hclient, hserver, rfl⟩
    exact ⟨hclient, hserver, rfl, allMessages_nil⟩
  write_of_fits := by
    rintro client id images queue ⟨hopen, rfl⟩ hcarries o hfits timestamp
    obtain ⟨buffer, hwrite⟩ := bufferedWrite_whole client.buffer client.lastId timestamp hfits
    refine ⟨{ client with buffer, lastId := client.lastId + 1 }, _, ?_, ⟨hopen, rfl⟩,
      hcarries.concat (client.lastId + 1) hfits timestamp⟩
    simp only [transport, write, decide_eq_true hopen, hwrite]
    rfl
  write_of_not_fits := by
    rintro client id images ⟨hopen, rfl⟩ o hfits - timestamp
    refine ⟨client, ?_, hopen, rfl⟩
    simp only [transport, write, decide_eq_true hopen, bufferedWrite_of_lt _ _ _ _ _ hfits]
    rfl
  read_nil := by
    rintro server images hopen ⟨rfl, hall⟩
    refine ⟨server, [], ?_, hopen, rfl, hall⟩
    simp only [transport, List.map_nil, nextEvent, read, if_neg hopen]
    rfl
  read_cons := by
    rintro server images m queue hopen ⟨rfl, hall⟩
    obtain ⟨hm, hall⟩ := List.forall_mem_cons.mp hall
    refine ⟨{ server with buffer := server.buffer.write 0 (imageOf m) }, queue.map imageOf, ?_, hopen,
      rfl, hall⟩
    simp only [transport, List.map_cons, nextEvent, read, if_neg hopen,
      outcomeOf_of_wellFormed _ hm.length_le hm.wellFormed, hm.messageResult_eq]

/-! ## D-Bus -/

/-- The method call of a message. -/
def callOf (m : DataHeader × DataObject) : MethodCall :=
  ⟨typePath m.2.getType, validPath_typePath m.2,
    [.uint32 m.1.id, .int64 m.1.timestamp, .byteArray (.ofList m.2.image)]⟩

/-- What the bus does: the messages that wait for the reader after a call has been sent. One that is no
call of the method is `none`. -/
structure BusRoute where
  /-- The messages after another call. -/
  deliver : List (Option MethodCall) → MethodCall → List (Option MethodCall)

/-- Every call arrives at once, and nothing else does. -/
def BusRoute.Undisturbed (bus : BusRoute) : Prop :=
  ∀ queue call, bus.deliver queue call = queue ++ [some call]

/-- A bus without other messages. -/
def BusRoute.plain : BusRoute := ⟨fun queue call => queue ++ [some call]⟩

/-- What `dbus_connection_pop_message` returns of a message. -/
def popped : Option MethodCall → PoppedMessage
  | none => .other
  | some call => .call call

/-- A connection to the bus. The messages of the bus itself, which come with the name of the reader, have
been read. -/
def DBus.transport (bus : BusRoute) : Transport where
  Handler := DBus
  Carrier := List (Option MethodCall)
  Start client server queue :=
    (client.isOpen = true ∧ client.lastId = 0) ∧ server.isOpen = true ∧ queue = [] ∧ bus.Undisturbed
  write client queue o timestamp :=
    let call := client.write o timestamp .sent
    some (call.result, { client with buffer := call.buffer, lastId := call.lastId },
      match call.sent with
      | none => queue
      | some message => bus.deliver queue message)
  read server queue :=
    match queue with
    | [] => ((server.read .none).outcome, server, [])
    | message :: queue => ((server.read (popped message)).outcome, server, queue)

/-- Objects whose body alone fits the buffer are sent. -/
theorem DBus.write_of_le {client : DBus} (hopen : client.isOpen = true) {o : DataObject}
    (timestamp : Int64) (h : o.bodySize ≤ bufferSize) :
    ∃ buffer, client.write o timestamp .sent =
      ⟨true, buffer, client.lastId + 1,
        some (callOf (Channel.message (client.lastId + 1) o timestamp))⟩ := by
  have hbody := o.serialize_of_le client.buffer 0 (show bufferSize < 2 ^ 31 by decide) h
  have hne : (o.bodySize : ℤ) ≠ -1 := by omega
  refine ⟨client.buffer.write 0 o.image, ?_⟩
  have hread : (client.buffer.write 0 o.image).read 0 o.bodySize = o.image := by
    rw [← o.length_image, Memory.read_write]
  simp only [write, if_pos hopen, hbody, if_neg hne, Int.toNat_natCast, hread]
  rfl

/-- The other ones are rejected. -/
theorem DBus.write_of_lt {client : DBus} (hopen : client.isOpen = true) {o : DataObject}
    (timestamp : Int64) (h : bufferSize < o.bodySize) :
    client.write o timestamp .sent = ⟨false, client.buffer, client.lastId, none⟩ := by
  have hbody := o.serialize_of_lt client.buffer 0 h
  simp only [write, if_pos hopen, hbody]
  rfl

/-- The path of a type is read as the type. -/
theorem pathType_typePath (o : DataObject) :
    MethodCall.pathType (typePath o.getType) = .ok o.getType := by
  have h : ∀ type ∈ [DataType.ping, .javaSymbolLookup, .binaryData],
      MethodCall.pathType (typePath type) = .ok type := by decide
  exact h _ (by cases o <;> simp [DataObject.getType])

/-- The call of a message is read as the message. -/
theorem IsMessage.read_callOf {m : DataHeader × DataObject} (hm : IsMessage m) :
    (callOf m).read.outcome = .ok (.ok m) := by
  have hresult := hm.readResult_eq
  have hlength := hm.length_le
  obtain ⟨header, o⟩ := m
  obtain ⟨hfits, id, timestamp, hheader⟩ := hm
  simp only at hheader hresult
  rw [length_imageOf] at hlength
  have hbytes : (ByteArrayArgument.ofList o.image).bytes = o.image := by
    apply List.take_of_length_le
    rw [DataObject.length_image]
    simp only [bufferSize, DataHeader.headerSize] at hlength
    omega
  have hread : (callOf (header, o)).read = MethodCall.readArguments o.getType
      [.uint32 header.id, .int64 header.timestamp, .byteArray (.ofList o.image)] := by
    simp only [callOf, MethodCall.read, pathType_typePath]
    rfl
  rw [hread, MethodCall.readArguments]
  simp only [hbytes, deserializeDataObject_eq, Memory.read_write]
  rw [DataObject.length_image]
  rw [hheader] at hresult ⊢
  exact congrArg Except.ok hresult

/-- D-Bus delivers, as long as no body is between the limit and the size of the buffer. -/
def DBus.delivers (bus : BusRoute) :
    (DBus.transport bus).Delivers fun o => ¬ o.Fits → bufferSize < o.bodySize where
  Writes client id := (client.isOpen = true ∧ client.lastId = id) ∧ bus.Undisturbed
  Reads server := server.isOpen = true
  Carries messages queue := messages = queue.map (fun m => some (callOf m)) ∧ AllMessages queue
  start := by
    rintro client server calls ⟨hclient, hserver, rfl, hbus⟩
    exact ⟨⟨hclient, hbus⟩, hserver, rfl, allMessages_nil⟩
  write_of_fits := by
    rintro client id messages queue ⟨⟨hopen, rfl⟩, hbus⟩ ⟨rfl, hall⟩ o hfits timestamp
    have hle : o.bodySize ≤ bufferSize := (Nat.le_add_left _ _).trans hfits
    obtain ⟨buffer, hwrite⟩ := write_of_le hopen timestamp hle
    refine ⟨{ client with buffer, lastId := client.lastId + 1 },
      queue.map (fun m => some (callOf m)) ++
        [some (callOf (Channel.message (client.lastId + 1) o timestamp))], ?_,
      ⟨⟨hopen, rfl⟩, hbus⟩, ?_, hall.concat (client.lastId + 1) hfits timestamp⟩
    · simp only [transport, hwrite, hbus _ _]
    · rw [List.map_append, List.map_singleton]
  write_of_not_fits := by
    rintro client id messages ⟨⟨hopen, rfl⟩, hbus⟩ o hfits hlong timestamp
    refine ⟨client, ?_, ⟨hopen, rfl⟩, hbus⟩
    simp only [transport, write_of_lt hopen timestamp (hlong hfits)]
    rfl
  read_nil := by
    rintro server calls hopen ⟨rfl, hall⟩
    refine ⟨server, [], ?_, hopen, rfl, hall⟩
    simp only [transport, List.map_nil, read, if_pos hopen]
  read_cons := by
    rintro server calls m queue hopen ⟨rfl, hall⟩
    obtain ⟨hm, hall⟩ := List.forall_mem_cons.mp hall
    refine ⟨server, queue.map (fun m => some (callOf m)), ?_, hopen, rfl, hall⟩
    simp only [transport, List.map_cons, popped, read, if_pos hopen, hm.read_callOf]

/-- The header and the body are over the limit, but the body alone fits the buffer. -/
def DataObject.Between (o : DataObject) : Prop := ¬ o.Fits ∧ o.bodySize ≤ bufferSize

instance (o : DataObject) : Decidable o.Between :=
  inferInstanceAs (Decidable (_ ∧ _))

/-- The abstract queue accepts what fits. -/
theorem Channel.forall₂_machine {input : List HandlerCall} {replies : List HandlerReply}
    {t : Channel} (hrun : (Channel.machine .unlimited).outputs t input = some replies) :
    List.Forall₂ (fun call reply => ∀ o timestamp, call = .write o timestamp →
      reply = .written (decide o.Fits)) input replies := by
  refine Machine.forall₂_outputs (fun _ => True) ?_ trivial hrun
  rintro t call reply t' - hstep
  refine ⟨trivial, ?_⟩
  rintro o timestamp rfl
  rw [machine] at hstep
  by_cases hfits : o.Fits
  · rw [if_pos hfits] at hstep
    simp only [Capacity.unlimited, if_true] at hstep
    cases hstep
    rw [decide_eq_true hfits]
  · rw [if_neg hfits] at hstep
    cases hstep
    rw [decide_eq_false hfits]

/-- D-Bus on a bus that takes everything. -/
def DBus.unlimited (bus : BusRoute) : Transport := (DBus.transport bus).limited fun _ => true

/-- D-Bus accepts what fits without a header. -/
theorem DBus.forall₂_machine {bus : BusRoute} {input : List HandlerCall} {replies : List HandlerReply}
    {s : (DBus.unlimited bus).State} (hopen : DBus.isOpen s.client = true)
    (hrun : (DBus.unlimited bus).machine.outputs s input = some replies) :
    List.Forall₂ (fun call reply => ∀ o timestamp, call = .write o timestamp →
      reply = .written (decide (o.bodySize ≤ bufferSize))) input replies := by
  refine Machine.forall₂_outputs (fun s => DBus.isOpen s.client = true) ?_ hopen hrun
  rintro s call reply s' hopen hstep
  cases call with
  | write o timestamp =>
      by_cases hle : o.bodySize ≤ bufferSize
      · obtain ⟨buffer, hwrite⟩ := write_of_le hopen timestamp hle
        simp only [Transport.machine, unlimited, Transport.limited, transport, hwrite, Option.filter,
          Bool.or_true, if_true, Option.map_some] at hstep
        cases hstep
        refine ⟨hopen, ?_⟩
        rintro _ _ ⟨⟩
        rw [decide_eq_true hle]
      · have hwrite := write_of_lt hopen timestamp (Nat.lt_of_not_le hle)
        simp only [Transport.machine, unlimited, Transport.limited, transport, hwrite, Option.filter,
          Bool.or_true, if_true, Option.map_some] at hstep
        cases hstep
        refine ⟨hopen, ?_⟩
        rintro _ _ ⟨⟩
        rw [decide_eq_false hle]
  | read =>
      simp only [Transport.machine] at hstep
      cases hstep
      refine ⟨hopen, ?_⟩
      rintro _ _ ⟨⟩

/-- D-Bus agrees with the abstract queue exactly when no object is between the two limits. -/
theorem DBus.agrees_iff {bus : BusRoute} (hbus : bus.Undisturbed) (input : List HandlerCall) :
    (DBus.unlimited bus).Agrees .unlimited input ↔
      ∀ o timestamp, HandlerCall.write o timestamp ∈ input → ¬ o.Between := by
  constructor
  · rintro hagrees o timestamp hmem ⟨hnot, hle⟩
    -- the abstract queue never blocks, so there are replies, and D-Bus has given the same ones
    obtain ⟨replies, hchannel⟩ := Machine.exists_outputs Channel.exists_machine .empty input
    have hdbus := hagrees ⟨⟨true, 0, fun _ => 0⟩, ⟨true, 0, fun _ => 0⟩, []⟩
      ⟨⟨rfl, rfl⟩, rfl, rfl, hbus⟩
    rw [hchannel] at hdbus
    obtain ⟨hlength, hdbus⟩ := List.forall₂_iff_get.mp (forall₂_machine rfl hdbus)
    obtain ⟨-, hchannel⟩ := List.forall₂_iff_get.mp (Channel.forall₂_machine hchannel)
    obtain ⟨n, hn, hget⟩ := List.getElem_of_mem hmem
    -- both replies to the write, which are the same one
    have hyes := hdbus n hn (hlength ▸ hn) o timestamp hget
    have hno := hchannel n hn (hlength ▸ hn) o timestamp hget
    rw [hyes, decide_eq_true hle, decide_eq_false hnot] at hno
    cases hno
  · intro h
    apply (delivers bus).agrees fun _ _ _ => rfl
    rintro (⟨o, timestamp⟩ | _) hmem
    · intro hnot
      by_contra hlt
      exact h o timestamp hmem ⟨hnot, Nat.le_of_not_lt hlt⟩
    · trivial

/-! ## Rings -/

/-- A ring. -/
def RingCalls.transport {σ : Type} (calls : RingCalls σ) : Transport where
  Handler := RingHandler
  Carrier := Segment σ
  Start client server segment :=
    (client.isOpen = true ∧ client.lastId = 0 ∧ client.offset = 0) ∧
      (server.isOpen = true ∧ server.offset = 0) ∧ segment = ⟨calls.empty, 0, totalAmount⟩
  write client segment o timestamp := calls.write client segment o timestamp
  read server segment := calls.read server segment

/-- As many messages as there are slots. -/
def slots : Capacity := .messages totalAmount (by decide)

/-- Writer, reader and segment are those of an abstract queue. -/
structure RingCalls.Rel {σ : Type} (calls : RingCalls σ) (s : calls.transport.State) (t : Channel) :
    Prop where
  /-- The writer is open. -/
  client_open : s.client.isOpen = true
  /-- It has sent as many messages. -/
  lastId_eq : s.client.lastId = t.lastId
  /-- The reader is open. -/
  server_open : s.server.isOpen = true
  /-- The ring holds the queue. -/
  ring : RingState totalAmount (calls.holds s.carrier.store) s.server.offset s.client.offset
    s.carrier.reader s.carrier.writer t.queue
  /-- All slots are counted. -/
  slots_eq : s.carrier.writer + t.queue.length = totalAmount

/-- Call by call, a ring does what a queue of its capacity does. -/
theorem RingCalls.simulates {σ : Type} (calls : RingCalls σ) :
    Machine.Simulates calls.transport.machine (Channel.machine slots) (fun _ => True)
      calls.Rel := by
  rintro ⟨client, server, store, reader, writer⟩ ⟨id, queue⟩ call h -
  obtain ⟨hclient, rfl, hserver, hring, hslots⟩ := h
  cases call with
  | write o timestamp =>
      simp only [Transport.machine, Channel.machine, transport]
      by_cases hfits : o.Fits
      · rw [if_pos hfits]
        cases writer with
        | zero =>
            -- every slot is taken
            have hfull : ¬ slots.holds
                (queue ++ [Channel.message (client.lastId + 1) o timestamp]) = true := by
              simp only [slots, Capacity.messages, List.length_append, List.length_singleton,
                decide_eq_true_eq]
              change 0 + queue.length = totalAmount at hslots
              omega
            rw [calls.write_of_zero hclient store reader hfits timestamp, if_neg hfull]
            exact .none
        | succ writer =>
            have hroom : slots.holds
                (queue ++ [Channel.message (client.lastId + 1) o timestamp]) = true := by
              simp only [slots, Capacity.messages, List.length_append, List.length_singleton,
                decide_eq_true_eq]
              change writer + 1 + queue.length = totalAmount at hslots
              omega
            obtain ⟨buffer, store', hwrite, hholds, hkeep⟩ :=
              calls.write_of_pos hclient store reader writer hfits timestamp
            rw [hwrite, if_pos hroom]
            -- one slot more in use, one token less
            refine .some ⟨rfl, rfl, rfl, hserver, hring.push hkeep hholds, ?_⟩
            change writer + (queue ++ [_]).length = totalAmount
            change writer + 1 + queue.length = totalAmount at hslots
            rw [List.length_append, List.length_singleton]
            omega
      · rw [if_neg hfits, calls.write_of_not_fits hclient _ hfits timestamp]
        exact .some ⟨rfl, hclient, rfl, hserver, hring, hslots⟩
  | read =>
      simp only [Transport.machine, Channel.machine, transport]
      cases queue with
      | nil =>
          obtain rfl : reader = 0 := hring.reader_eq
          rw [calls.read_of_zero hserver]
          exact .some ⟨rfl, hclient, rfl, hserver, hring, hslots⟩
      | cons m queue =>
          obtain rfl : reader = queue.length + 1 := hring.reader_eq
          obtain ⟨m', queue', hqueue, hholds⟩ := hring.exists_cons
          cases hqueue
          obtain ⟨buffer, hread⟩ := calls.read_of_pos hserver queue.length writer hholds
          simp only [hread]
          refine .some ⟨rfl, hclient, rfl, rfl, hring.pop le_rfl, ?_⟩
          change writer + (m :: queue).length = totalAmount at hslots
          change writer + 1 + queue.length = totalAmount
          rw [List.length_cons] at hslots
          omega

/-- A ring starts as the empty queue. -/
theorem RingCalls.rel_start {σ : Type} (calls : RingCalls σ) {s : calls.transport.State}
    (hstart : calls.transport.Start s.client s.server s.carrier) : calls.Rel s .empty := by
  obtain ⟨client, server, segment⟩ := s
  obtain ⟨⟨hclient, hid, hoffset⟩, ⟨hserver, hoffset'⟩, rfl⟩ := hstart
  refine ⟨hclient, hid, hserver, ?_, rfl⟩
  change RingState _ _ server.offset client.offset _ _ _
  rw [show server.offset = 0 from hoffset', show client.offset = 0 from hoffset]
  exact RingState.empty (by decide) le_rfl

/-- A ring agrees with the abstract queue of its capacity. -/
theorem RingCalls.agrees {σ : Type} (calls : RingCalls σ) (input : List HandlerCall) :
    calls.transport.Agrees slots input := by
  intro s hstart
  exact Machine.outputs_eq calls.simulates (calls.rel_start hstart) fun _ _ => trivial

/-! ## The handler classes -/

/-- The kernel keeps so many bytes for the reader, at least those of one message. -/
structure KernelBuffer where
  /-- Number of bytes. -/
  size : ℕ
  bufferSize_le : bufferSize ≤ size

namespace KernelBuffer

/-- Whether there is room for the bytes. -/
def room (buffer : KernelBuffer) (bytes : List UInt8) : Bool := bytes.length ≤ buffer.size

/-- The same in messages. -/
def capacity (buffer : KernelBuffer) : Capacity := .bytes buffer.size buffer.bufferSize_le

end KernelBuffer

/-- `QUEUE_SIZE`. -/
def MessageQueue.queueSize : ℕ := 10

/-- Whether there is room for the messages: `mq_maxmsg`. -/
def MessageQueue.room (queue : List (List UInt8)) : Bool := queue.length ≤ queueSize

/-- The handler classes, with what they leave to the kernel, the network and the bus. -/
inductive HandlerClass
  | streamSocket (buffer : KernelBuffer)
  | datagramSocket (route : DatagramRoute)
  | fifo (buffer : KernelBuffer)
  | messageQueue
  | sharedMemory
  | sharedFile
  | dbus (bus : BusRoute)

namespace HandlerClass

/-- Whether the class is D-Bus. -/
def isBus : HandlerClass → Bool
  | dbus _ => true
  | _ => false

/-- The transport of a class. -/
def transport : HandlerClass → Transport
  | streamSocket buffer => StreamSocket.transport.limited buffer.room
  | datagramSocket route => (DatagramSocket.transport route).limited route.room
  | fifo buffer => Fifo.transport.limited buffer.room
  | messageQueue => MessageQueue.transport.limited MessageQueue.room
  | sharedMemory => SharedMemory.calls.transport
  | sharedFile => SharedFile.calls.transport
  | dbus bus => DBus.unlimited bus

/-- What can be on its way before its writer blocks. -/
def capacity : HandlerClass → Capacity
  | streamSocket buffer => buffer.capacity
  | datagramSocket route => route.capacity
  | fifo buffer => buffer.capacity
  | messageQueue => .messages MessageQueue.queueSize (by decide)
  | sharedMemory => slots
  | sharedFile => slots
  | dbus _ => .unlimited

/-- A stream holds the bytes of its messages. -/
theorem holds_stream (buffer : KernelBuffer) :
    StreamSocket.delivers.Holds buffer.room buffer.capacity := by
  rintro bytes queue ⟨rfl, -⟩
  rfl

/-- So does a pipe. -/
theorem holds_fifo (buffer : KernelBuffer) : Fifo.delivers.Holds buffer.room buffer.capacity := by
  rintro bytes queue ⟨rfl, -⟩
  rfl

/-- Datagrams are counted. -/
theorem holds_datagram (route : DatagramRoute) :
    (DatagramSocket.delivers route).Holds route.room route.capacity := by
  rintro images queue ⟨rfl, -⟩
  cases route with
  | unix limit limit_pos =>
      simp only [DatagramRoute.room, DatagramRoute.capacity, Capacity.messages, List.length_map]
  | udp deliver => rfl

/-- So are the messages of a queue. -/
theorem holds_messageQueue :
    MessageQueue.delivers.Holds MessageQueue.room (capacity messageQueue) := by
  rintro images queue ⟨rfl, -⟩
  simp only [MessageQueue.room, capacity, Capacity.messages, List.length_map]

/-- **When all transports agree**: exactly when no object is written that fits the buffer without a
header only. -/
theorem agree_iff (input : List HandlerCall) :
    (∀ c : HandlerClass, c.transport.Agrees c.capacity input) ↔
      ∀ o timestamp, HandlerCall.write o timestamp ∈ input → ¬ o.Between := by
  constructor
  · intro h
    have hbus : BusRoute.plain.Undisturbed := fun _ _ => rfl
    exact (DBus.agrees_iff hbus input).mp (h (dbus .plain))
  · intro h c
    have hall : ∀ call ∈ input, Transport.OfWrites (fun _ => True) call := by
      rintro (⟨o, timestamp⟩ | _) - <;> trivial
    cases c with
    | streamSocket buffer => exact StreamSocket.delivers.agrees (holds_stream buffer) hall
    | datagramSocket route =>
        exact (DatagramSocket.delivers route).agrees (holds_datagram route) hall
    | fifo buffer => exact Fifo.delivers.agrees (holds_fifo buffer) hall
    | messageQueue => exact MessageQueue.delivers.agrees holds_messageQueue hall
    | sharedMemory => exact SharedMemory.calls.agrees input
    | sharedFile => exact SharedFile.calls.agrees input
    | dbus bus =>
        intro s hstart
        exact (DBus.agrees_iff hstart.2.2.2 input).mpr h s hstart

/-- An object of 509 bytes, which has a body of 513 bytes. -/
def betweenObject : DataObject := .binaryData ⟨.ofList (List.replicate 509 0)⟩

/-- D-Bus accepts it, the other handlers do not. -/
theorem not_agree_between :
    ¬ ∀ (input : List HandlerCall) (c : HandlerClass), c.transport.Agrees c.capacity input := by
  intro h
  have hnot := (DBus.agrees_iff (fun _ _ => rfl) [.write betweenObject 7]).mp (h _ (dbus .plain))
  exact hnot betweenObject 7 (List.mem_singleton.mpr rfl) (by decide +kernel)

end HandlerClass

end IpcPerformance
