import IpcPerformance.Handler.StreamSocket
import IpcPerformance.Library.Runs

/-! # Framing on stream sockets

A stream carries frames back to back; only the body size in a header says where the next one starts.
The reader has to find the same boundaries however the bytes arrive and wherever a connection breaks
off.

* `StreamServer.step` — the server's loop: `read`, and `accept` after every disconnect.
* `StreamServer.Serving` — the invariant: the connection served is cut on a frame boundary, and what
  is owed are the results of its complete frames and of those of the connections to come.
* `StreamServer.framing` — the results of the loop are those of the complete frames, in order. -/

namespace IpcPerformance

/-! ## Frames -/

/-- What a peer sends: a header of any id, type and timestamp, and as many bytes as it announces. -/
structure Frame where
  /-- The header. -/
  header : DataHeader
  /-- The bytes behind it. -/
  body : List UInt8
  /-- The header announces the body. -/
  bodySize_eq : header.bodySize.toNat = body.length
  /-- Header and body fit the buffer of the handlers. -/
  length_le : body.length ≤ 512

namespace Frame

/-- The bytes of a frame. -/
def image (f : Frame) : List UInt8 := f.header.image ++ f.body

@[simp] theorem length_image (f : Frame) :
    f.image.length = DataHeader.headerSize + f.body.length := by
  simp [image]

/-- The result a frame is to give: the header with the object its body decodes to, or the decoding
error. -/
def result (f : Frame) : ReadResult :=
  readResult f.header (deserializeDataObject f.header.type
    (Memory.write (fun _ => 0) 0 f.body) 0 f.body.length)

theorem result_eq (f : Frame) :
    f.result = readResult f.header (DataObject.ofImage f.header.type f.body) := by
  rw [result, deserializeDataObject_eq, Memory.read_write]

end Frame

/-- The bytes of frames sent one after the other. -/
def wireImage (frames : List Frame) : List UInt8 := frames.flatMap Frame.image

/-- The frames that arrive whole when `n` bytes of them arrive. -/
def completeFrames : List Frame → ℕ → List Frame
  | [], _ => []
  | f :: fs, n => if f.image.length ≤ n then f :: completeFrames fs (n - f.image.length) else []

/-- All bytes of all frames are enough for all frames. -/
theorem completeFrames_length_wireImage (frames : List Frame) :
    completeFrames frames (wireImage frames).length = frames := by
  induction frames with
  | nil => rfl
  | cons f fs ih =>
      rw [wireImage, List.flatMap_cons, completeFrames, List.length_append,
        if_pos (Nat.le_add_right _ _), Nat.add_sub_cancel_left]
      exact congrArg (f :: ·) ih

/-- A connection of a client: it carries frames up to some byte, in any segments and with any waits
in between, and is then closed. -/
structure Connection where
  /-- The reading end at the server. -/
  stream : ByteStream
  /-- The frames the client meant to send. -/
  frames : List Frame
  /-- No receive fails. -/
  reliable : stream.Reliable
  /-- The client disconnects in the end. -/
  closed : stream.closed = true
  /-- What arrives is a part of the frames, cut at any byte. -/
  carries : stream.pending <+: wireImage frames

/-- The results a connection is to give: one for each complete frame. -/
def Connection.results (c : Connection) : List ReadResult :=
  (completeFrames c.frames c.stream.pending.length).map Frame.result

/-! ## A read on frames -/

/-- **A read on a stream of frames**, which are all there or cut by a disconnect: nothing has arrived
yet; or the next complete frame is consumed; or there is no complete frame left. -/
theorem StreamSocket.read_cases {socket : StreamSocket} (hopen : socket.cfd ≠ -1)
    {stream : ByteStream} {frames : List Frame} (hrel : stream.Reliable)
    (hcarries : stream.pending <+: wireImage frames)
    (hend : stream.closed = true ∨ stream.pending = wireImage frames) :
    (∃ next calls,
      socket.read stream = ⟨.ok (.error .noDataAvailable), socket.buffer, next, calls⟩ ∧
        next.pending = stream.pending ∧ next.closed = stream.closed ∧ next.Reliable ∧
        (next.work < stream.work ∨ next = stream ∧ stream.events = [] ∧ stream.closed = false)) ∨
    (∃ f fs buffer next calls, frames = f :: fs ∧
      socket.read stream = ⟨.ok f.result, buffer, next, calls⟩ ∧
        stream.pending = f.image ++ next.pending ∧ next.closed = stream.closed ∧ next.Reliable ∧
        next.work < stream.work) ∨
    (∃ buffer calls,
      socket.read stream = ⟨.ok (.error .connectionClosed), buffer, ⟨[], true⟩, calls⟩ ∧
        stream.closed = true ∧ completeFrames frames stream.pending.length = []) := by
  -- whether the first receive would block decides between the first case and the others
  by_cases hagain : ∃ next, stream.recv DataHeader.headerSize = (.again, next)
  · obtain ⟨next, hrecv⟩ := hagain
    obtain ⟨calls, hread⟩ := read_of_again hopen hrecv
    obtain ⟨hpending, -, hclosed, hrel', hwork⟩ := ByteStream.of_recv_again (by decide) hrecv
    exact .inl ⟨next, calls, hread, hpending, hclosed, hrel' hrel, hwork⟩
  · have hno : ∀ next, stream.recv DataHeader.headerSize ≠ (.again, next) :=
      fun next h => hagain ⟨next, h⟩
    cases frames with
    | nil =>
        have hnil : stream.pending = [] := List.prefix_nil.mp hcarries
        -- without bytes to come, the stream has to be at its end
        have hclosed : stream.closed = true := by
          rcases stream.recv_cases (show 0 < DataHeader.headerSize by decide) with
            ⟨next, h, _⟩ | ⟨_, _, _, hfail⟩ | ⟨_, _, hclosed⟩ | ⟨bytes, _, _, hne, _, hpending, _⟩
          · exact absurd h (hno next)
          · exact absurd hrel hfail
          · exact hclosed
          · rw [hnil] at hpending
            exact absurd (List.append_eq_nil_iff.mp hpending.symm).1 hne
        obtain ⟨buffer, calls, hread⟩ := read_of_cut hopen hrel hclosed hno
          (.inl (by rw [hnil]; decide))
        exact .inr (.inr ⟨buffer, calls, hread, hclosed, rfl⟩)
    | cons f fs =>
        rw [wireImage, List.flatMap_cons] at hcarries hend
        by_cases hle : f.image.length ≤ stream.pending.length
        · -- the whole frame is there
          obtain ⟨rest, hrest⟩ :=
            List.prefix_of_prefix_length_le (List.prefix_append _ _) hcarries hle
          have hpending : stream.pending = f.header.image ++ (f.body ++ rest) := by
            rw [← hrest, Frame.image, List.append_assoc]
          obtain ⟨buffer, next, calls, hread, hnext, hclosed, hrel', hwork⟩ :=
            read_of_frame hopen hrel hno f.bodySize_eq hpending
          exact .inr (.inl ⟨f, fs, buffer, next, calls, rfl, by rw [hread, f.result_eq],
            by rw [← hrest, hnext], hclosed, hrel', hwork⟩)
        · -- the connection breaks off within the frame
          have hclosed : stream.closed = true := hend.resolve_right fun h => by
            rw [h, List.length_append] at hle
            omega
          have hlt : stream.pending.length < DataHeader.headerSize + f.body.length := by
            rw [f.length_image] at hle
            omega
          have hprefix : stream.pending <+: f.header.image ++ f.body :=
            List.prefix_of_prefix_length_le hcarries (List.prefix_append _ _) (Nat.le_of_not_le hle)
          obtain ⟨buffer, calls, hread⟩ := read_of_cut hopen hrel hclosed hno
            (.inr ⟨f.header, f.body, f.bodySize_eq, hprefix, hlt⟩)
          exact .inr (.inr ⟨buffer, calls, hread, hclosed, by rw [completeFrames, if_neg hle]⟩)

/-- The results a server loop goes by; the others say that there is nothing to do. -/
def delivered (result : ReadResult) : Option ReadResult :=
  match result with
  | .error .noDataAvailable => none
  | .error .connectionClosed => none
  | r => some r

/-- Decoding never fails with one of the errors that mean there is nothing to do. -/
@[simp] theorem delivered_result (f : Frame) : delivered f.result = some f.result := by
  rw [f.result_eq]
  rcases DataObject.ofImage_cases f.header.type f.body with ⟨o, h⟩ | h | h <;> rw [h] <;> rfl

/-! ## Reading one stream -/

namespace StreamSocket

/-- The invariant of a reader: what is left of the stream are whole frames, and their results are
owed. -/
def Reading (s : StreamSocket × ByteStream) (owed : List ReadResult) : Prop :=
  s.1.cfd ≠ -1 ∧ s.2.Reliable ∧
    ∃ frames : List Frame, s.2.pending = wireImage frames ∧ owed = frames.map Frame.result

/-- A reader delivers the results of the frames on its stream. -/
theorem readStep_delivers :
    Stepper.Delivers readStep delivered (fun s => s.2.work) Reading where
  step_cases {s owed} h := by
    obtain ⟨hopen, hrel, frames, hpending, rfl⟩ := h
    rcases read_cases hopen hrel (hpending ▸ List.prefix_rfl) (.inr hpending) with
      ⟨next, calls, hread, hsame, hclosed, hrel', hwork⟩ |
      ⟨f, fs, buffer, next, calls, rfl, hread, hnext, hclosed, hrel', hwork⟩ |
      ⟨buffer, calls, hread, hclosed, hnone⟩
    · -- nothing yet: the frames are still owed
      refine ⟨_, _, frames.map Frame.result, readStep_of_ok hread,
        ⟨hopen, hrel', frames, by rw [hsame, hpending], rfl⟩, rfl, ?_⟩
      rcases hwork with hwork | ⟨rfl, hevents, -⟩
      · exact .inl hwork
      · exact .inr (by simp [ByteStream.work, ByteStream.pending, hevents])
    · -- the first frame is delivered
      rw [hnext, wireImage, List.flatMap_cons, List.append_cancel_left_eq] at hpending
      exact ⟨_, _, fs.map Frame.result, readStep_of_ok hread,
        ⟨hopen, hrel', fs, hpending, rfl⟩, by simp, .inl hwork⟩
    · -- the end of the stream: all frames were complete, so none is left
      rw [hpending, completeFrames_length_wireImage] at hnone
      subst hnone
      exact ⟨_, _, [], readStep_of_ok hread,
        ⟨hopen, by simp [ByteStream.Reliable], [], rfl, rfl⟩, rfl, .inr rfl⟩
  done {s owed} h hwork := by
    obtain ⟨-, -, frames, hpending, rfl⟩ := h
    have hnil : s.2.pending = [] := by
      rw [← List.length_eq_zero_iff]
      exact Nat.eq_zero_of_add_eq_zero_right hwork
    rw [hnil] at hpending
    rw [← completeFrames_length_wireImage frames, ← hpending]
    cases frames with
    | nil => rfl
    | cons f fs => simp [wireImage, Frame.image, DataHeader.image, LittleEndian.toBytes] at hpending

end StreamSocket

/-! ## The server -/

/-- A server socket together with what the kernel holds for it. -/
structure StreamServer where
  /-- The handler. -/
  socket : StreamSocket
  /-- The connections. -/
  net : Network

namespace StreamServer

/-- One round of the server's loop: `read`, then `accept` if the connection has been closed. -/
def step : Stepper Fault ReadResult StreamServer := fun s =>
  let call := s.socket.read s.net.stream
  match call.outcome with
  | .error fault => .error fault
  | .ok result =>
      let socket := { s.socket with buffer := call.buffer }
      let net := { s.net with stream := call.stream }
      match result with
      | .error .connectionClosed =>
          let (_, socket, net) := socket.accept net
          .ok (result, ⟨socket, net⟩)
      | _ => .ok (result, ⟨socket, net⟩)

/-- The rounds an event of the backlog is good for. -/
def eventWork : AcceptEvent → ℕ
  | .client _ stream => stream.work + 2
  | _ => 1

/-- The rounds the server has work for. -/
def work (s : StreamServer) : ℕ :=
  (if s.socket.cfd = -1 then 0 else s.net.stream.work + 1) + (s.net.backlog.map eventWork).sum

/-- **The invariant of the server**: it listens, the connections to come are `connections`, and it
serves none now or one that starts on a frame boundary. Owed are the results of all of them. -/
def Serving (s : StreamServer) (owed : List ReadResult) : Prop :=
  s.socket.sfd ≠ -1 ∧
  ∃ (current : List ReadResult) (connections : List Connection),
    owed = current ++ connections.flatMap Connection.results ∧
    s.net.backlog.filterMap AcceptEvent.stream? = connections.map Connection.stream ∧
    (s.socket.cfd = -1 ∧ current = [] ∨
      s.socket.cfd ≠ -1 ∧
        ∃ c : Connection, c.stream = s.net.stream ∧ current = c.results)

/-! ## One round -/

/-- After a disconnect the server takes the next event of its backlog. -/
theorem serving_accept {socket socket' : StreamSocket} {net net' : Network} {accepted : Bool}
    (haccept : socket.accept net = (accepted, socket', net')) (hsfd : socket.sfd ≠ -1)
    {connections : List Connection}
    (hbacklog : net.backlog.filterMap AcceptEvent.stream? = connections.map Connection.stream) :
    Serving ⟨socket', net'⟩ (connections.flatMap Connection.results) ∧
      (work ⟨socket', net'⟩ < (net.backlog.map eventWork).sum ∨ work ⟨socket', net'⟩ = 0) := by
  rcases socket.accept_cases hsfd net with ⟨hnil, h⟩ | ⟨fd, stream, backlog, hcons, h⟩ |
    ⟨event, backlog, hcons, hevent, h⟩
  · -- nobody is waiting
    cases h.symm.trans haccept
    exact ⟨⟨hsfd, [], connections, rfl, hbacklog, .inl ⟨rfl, rfl⟩⟩, .inr (by simp [work, hnil])⟩
  · cases h.symm.trans haccept
    rw [hcons, List.filterMap_cons_some (show AcceptEvent.stream? _ = some stream from rfl)]
      at hbacklog
    -- the client is the first connection of those to come
    obtain ⟨c, connections, rfl, hstream, hrest⟩ := List.map_eq_cons_iff.mp hbacklog.symm
    have hopen : (fd : ℤ) ≠ -1 := by omega
    refine ⟨⟨hsfd, c.results, connections, rfl, hrest.symm, .inr ⟨hopen, c, hstream, rfl⟩⟩, .inl ?_⟩
    simp only [work, if_neg hopen, hcons, List.map_cons, List.sum_cons, eventWork]
    omega
  · -- no client comes with this event, but it is used up
    cases h.symm.trans haccept
    rw [hcons, List.filterMap_cons_none hevent] at hbacklog
    refine ⟨⟨hsfd, [], connections, rfl, hbacklog, .inl ⟨rfl, rfl⟩⟩, .inl ?_⟩
    have hpos : 0 < eventWork event := by
      cases event <;> simp [eventWork]
    simp only [work, hcons, List.map_cons, List.sum_cons, if_true]
    omega

/-- A round whose read does not find the connection closed leaves the backlog alone. -/
theorem step_of_ne {s : StreamServer} {result : ReadResult} {buffer : Memory UInt8}
    {stream : ByteStream} {calls : List RecvCall}
    (hread : s.socket.read s.net.stream = ⟨.ok result, buffer, stream, calls⟩)
    (hne : result ≠ .error .connectionClosed) :
    step s = .ok (result, ⟨{ s.socket with buffer }, { s.net with stream }⟩) := by
  simp only [step, hread]

/-- A round whose read finds the connection closed goes on with the backlog. -/
theorem step_of_closed {s : StreamServer} (hsfd : s.socket.sfd ≠ -1) {buffer : Memory UInt8}
    {stream : ByteStream} {calls : List RecvCall}
    (hread : s.socket.read s.net.stream =
      ⟨.ok (.error .connectionClosed), buffer, stream, calls⟩)
    {connections : List Connection}
    (hbacklog : s.net.backlog.filterMap AcceptEvent.stream? = connections.map Connection.stream) :
    ∃ s', step s = .ok (.error .connectionClosed, s') ∧
      Serving s' (connections.flatMap Connection.results) ∧
      (work s' < (s.net.backlog.map eventWork).sum ∨ work s' = 0) := by
  rcases haccept : StreamSocket.accept { s.socket with buffer } { s.net with stream } with
    ⟨accepted, socket', net'⟩
  obtain ⟨hserving, hwork⟩ := serving_accept haccept hsfd hbacklog
  refine ⟨⟨socket', net'⟩, ?_, hserving, hwork⟩
  simp only [step, hread, haccept]

/-- **One round of the server** delivers the next result it owes, or none, and gets something
done. -/
theorem serving_step {s : StreamServer} {owed : List ReadResult} (h : Serving s owed) :
    ∃ result s' rest, step s = .ok (result, s') ∧ Serving s' rest ∧
      owed = (delivered result).toList ++ rest ∧ (work s' < work s ∨ work s' = 0) := by
  obtain ⟨hsfd, current, connections, rfl, hbacklog, ⟨hcfd, rfl⟩ | ⟨hcfd, c, hstream, rfl⟩⟩ := h
  · -- no client: the round accepts one
    have hread : s.socket.read s.net.stream =
        ⟨.ok (.error .connectionClosed), s.socket.buffer, s.net.stream, []⟩ := by
      rw [StreamSocket.read, if_pos hcfd]
    obtain ⟨s', hstep, hserving, hwork⟩ := step_of_closed hsfd hread hbacklog
    refine ⟨_, s', _, hstep, hserving, rfl, ?_⟩
    simpa only [work, if_pos hcfd, Nat.zero_add] using hwork
  · obtain ⟨socket, ⟨stream, backlog⟩⟩ := s
    obtain ⟨cstream, frames, hrel, hclosed, hcarries⟩ := c
    simp only at hsfd hbacklog hcfd hstream
    subst hstream
    rcases StreamSocket.read_cases hcfd hrel hcarries (.inl hclosed) with
      ⟨next, calls, hread, hsame, hclosed', hrel', hwork⟩ |
      ⟨f, fs, buffer, next, calls, rfl, hread, hnext, hclosed', hrel', hwork⟩ |
      ⟨buffer, calls, hread, -, hnone⟩
    · -- nothing has arrived yet: the connection owes what it owed
      have hlt : next.work < cstream.work := hwork.resolve_right fun h => by
        rw [hclosed] at h
        cases h.2.2
      refine ⟨_, _, _, step_of_ne hread (by simp), ⟨hsfd, _, connections, rfl, hbacklog,
        .inr ⟨hcfd, ⟨next, frames, hrel', hclosed'.trans hclosed, hsame ▸ hcarries⟩, rfl, rfl⟩⟩,
        by simp [Connection.results, hsame, delivered], .inl ?_⟩
      simp only [work, if_neg hcfd]
      omega
    · -- the next frame is read, and the connection goes on behind it
      have hne : f.result ≠ .error .connectionClosed := fun h => by
        have := delivered_result f
        rw [h] at this
        cases this
      rw [hnext, wireImage, List.flatMap_cons, List.prefix_append_right_inj] at hcarries
      refine ⟨_, _, _, step_of_ne hread hne, ⟨hsfd, _, connections, rfl, hbacklog,
        .inr ⟨hcfd, ⟨next, fs, hrel', hclosed'.trans hclosed, hcarries⟩, rfl, rfl⟩⟩, ?_, .inl ?_⟩
      · simp [Connection.results, hnext, completeFrames]
      · simp only [work, if_neg hcfd]
        omega
    · -- the client is gone, and owes nothing any more
      obtain ⟨s', hstep, hserving, hwork⟩ :=
        step_of_closed (s := ⟨socket, ⟨cstream, backlog⟩⟩) hsfd hread hbacklog
      refine ⟨_, s', _, hstep, hserving, by simp [Connection.results, hnone, delivered], ?_⟩
      rcases hwork with hwork | hwork
      · refine .inl (hwork.trans_le ?_)
        exact Nat.le_add_left _ _
      · exact .inr hwork

/-- The server delivers what it owes, round by round. -/
theorem delivers : Stepper.Delivers step delivered work Serving where
  step_cases := serving_step
  done {s owed} h hwork := by
    obtain ⟨-, current, connections, rfl, hbacklog, ⟨_, rfl⟩ | ⟨hcfd, -⟩⟩ := h
    · -- the backlog is empty, so no connection is left
      have hnil : s.net.backlog = [] := by
        cases hs : s.net.backlog with
        | nil => rfl
        | cons event backlog => cases event <;> simp [work, hs, eventWork] at hwork
      rw [hnil, List.filterMap_nil] at hbacklog
      rw [List.map_eq_nil_iff.mp hbacklog.symm]
      rfl
    · simp [work, hcfd] at hwork

/-- **Framing.** A server without a client that calls `read` again and again, and `accept` after
every disconnect, obtains one result for each complete frame of the connections, in order, besides
those that say that there is nothing to do. Neither the segments the bytes arrive in nor waits, cut
frames and frames that do not decode change that. -/
theorem framing (s : StreamServer) (connections : List Connection) (hsfd : s.socket.sfd ≠ -1)
    (hcfd : s.socket.cfd = -1)
    (hbacklog : s.net.backlog.filterMap AcceptEvent.stream? = connections.map Connection.stream) :
    (∀ n, ∃ results last, step.run n s = .ok (results, last) ∧
      results.filterMap delivered <+: connections.flatMap Connection.results) ∧
    ∃ N, ∀ n ≥ N, ∃ results last, step.run n s = .ok (results, last) ∧
      results.filterMap delivered = connections.flatMap Connection.results := by
  have hserving : Serving s (connections.flatMap Connection.results) :=
    ⟨hsfd, [], connections, rfl, hbacklog, .inl ⟨hcfd, rfl⟩⟩
  constructor
  · intro n
    obtain ⟨results, last, rest, hrun, -, howed, -⟩ := delivers.run n hserving
    exact ⟨results, last, hrun, rest, howed.symm⟩
  · exact ⟨work s, fun n hn => delivers.run_complete hserving hn⟩

/-- A frame with a ping. -/
def pingFrame : Frame := ⟨⟨1, .ping, 0, 5⟩, [], rfl, by decide⟩

/-- A frame of a type nobody knows. -/
def unknownFrame : Frame := ⟨⟨2, ⟨9⟩, 2, 0⟩, [7, 8], rfl, by decide⟩

/-- A client whose first frame arrives in two pieces, and which leaves within its third one. -/
def firstClient : Connection where
  stream :=
    ⟨.again :: StreamEvent.push ((wireImage [pingFrame, unknownFrame, pingFrame]).take 5)
      (.again :: StreamEvent.push (((wireImage [pingFrame, unknownFrame, pingFrame]).drop 5).take 40) []),
      true⟩
  frames := [pingFrame, unknownFrame, pingFrame]
  reliable := by decide
  closed := rfl
  carries := by decide

/-- A client that sends one frame, and leaves. -/
def secondClient : Connection where
  stream := ⟨StreamEvent.push (wireImage [pingFrame]) [], true⟩
  frames := [pingFrame]
  reliable := by decide
  closed := rfl
  carries := by decide

/-- A listening server both clients will connect to. -/
def twoClients : StreamServer where
  socket := ⟨true, true, 3, -1, 0, fun _ => 0⟩
  net := ⟨⟨[], false⟩, [.timeout, .client 4 firstClient.stream, .client 5 secondClient.stream]⟩

/-- The server of two clients obtains the frames the first one sent whole, and that of the second. -/
theorem framing_twoClients :
    ∃ N, ∀ n ≥ N, ∃ results last, step.run n twoClients = .ok (results, last) ∧
      results.filterMap delivered =
        [.ok (pingFrame.header, .ping), .error .unknownData, .ok (pingFrame.header, .ping)] := by
  have h := (framing twoClients [firstClient, secondClient] (by decide) (by decide) (by rfl)).2
  rwa [show [firstClient, secondClient].flatMap Connection.results =
    [.ok (pingFrame.header, .ping), .error .unknownData, .ok (pingFrame.header, .ping)] by
      rfl] at h

end StreamServer

end IpcPerformance
