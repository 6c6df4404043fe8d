import IpcPerformance.Handler.StreamSocket
import IpcPerformance.Library.Ledger

/-! # The descriptors of a stream socket

The calls of a `StreamSocket` of `src/handler/stream_socket.cpp`, with every system call that opens or
closes a descriptor. Besides `open` and `accept` a descriptor may come from `await_data`; besides `close`
one may go in `accept`, in an `open` that fails, and in the destructor.

* `LoggedSocket.Holds` — the descriptors that are held are those of `sfd_` and `cfd_`.
* `LoggedSocket.disciplined_run` — descriptors are closed as they should be, whatever is called and
  whatever fails. -/

namespace IpcPerformance

/-- The system call a descriptor comes from. -/
inductive Origin
  /-- `socket`, for `sfd_`. -/
  | socket
  /-- `accept4`, for `cfd_`. -/
  | accepted
  deriving DecidableEq

/-- A descriptor. -/
structure Descriptor where
  origin : Origin
  number : ℤ
  deriving DecidableEq

/-- A socket, and the log of its descriptors. A descriptor that is closed is logged with the field it has
been in. -/
structure LoggedSocket where
  socket : StreamSocket
  log : List (LedgerEvent Descriptor)

/-- The results of the system calls of `open`. -/
structure SocketOutcome where
  /-- The descriptor, if `socket` succeeds. -/
  socket : Option ℕ
  /-- Whether `inet_pton` knows the address. -/
  address : Bool
  /-- Whether `bind` succeeds. -/
  bound : Bool
  /-- Whether `listen` succeeds. -/
  listening : Bool
  /-- Whether `connect` succeeds. -/
  connected : Bool

/-- What `poll` reports on a connection. -/
inductive PollResult
  | error
  | timeout
  | ready
  deriving DecidableEq

/-- A call of a socket. -/
inductive SocketCall
  | openSocket (o : SocketOutcome)
  | close
  | accept (e : AcceptEvent)
  /-- What `accept` comes to, if it is called, and what `poll` reports. -/
  | awaitData (e : AcceptEvent) (polled : PollResult)
  | hasData (polled : PollResult)
  | write (o : DataObject) (timestamp : Int64) (send : SendOutcome)
  | read (stream : ByteStream)

namespace LoggedSocket

/-- A new socket, of one of the two constructors. -/
def initial (server unix : Bool) : LoggedSocket := ⟨⟨server, unix, -1, -1, 0, fun _ => 0⟩, []⟩

/-- `StreamSocket::is_open`. -/
def isOpen (s : LoggedSocket) : Bool := s.socket.sfd ≠ -1

/-- `StreamSocket::build_address`: only a client of the Internet has an address to convert. -/
def buildAddress (s : LoggedSocket) (address : Bool) : Bool :=
  if s.socket.unix then true
  else if !s.socket.server then address
  else true

/-- The result of `socket` in `sfd_`. -/
def assignSocket (s : LoggedSocket) : Option ℕ → LoggedSocket
  | none => { s with socket := { s.socket with sfd := -1 } }
  | some fd => ⟨{ s.socket with sfd := fd }, s.log ++ [.acquired ⟨.socket, fd⟩]⟩

/-- `StreamSocket::create_server`, where the two domains take the same steps. -/
def createServer (s : LoggedSocket) (o : SocketOutcome) : Bool × LoggedSocket :=
  let s := s.assignSocket o.socket
  if s.socket.sfd = -1 then (false, s)
  -- the descriptor stays open when one of these fails: `open` is going to close it
  else if !s.buildAddress o.address then (false, s)
  else if !o.bound then (false, s)
  else if !o.listening then (false, s)
  else (true, s)

/-- `StreamSocket::create_client`. -/
def createClient (s : LoggedSocket) (o : SocketOutcome) : Bool × LoggedSocket :=
  let s := s.assignSocket o.socket
  if s.socket.sfd = -1 then (false, s)
  else if !s.buildAddress o.address then (false, s)
  else if !o.connected then (false, s)
  else (true, s)

/-- `StreamSocket::close`. -/
def close (s : LoggedSocket) : Bool × LoggedSocket :=
  if s.socket.sfd = -1 then (false, s)
  else
    let log := s.log ++ [.released ⟨.socket, s.socket.sfd⟩]
    let log := if s.socket.cfd ≠ -1 then log ++ [.released ⟨.accepted, s.socket.cfd⟩] else log
    (true, ⟨{ s.socket with sfd := -1, cfd := -1 }, log⟩)

/-- `StreamSocket::open`. -/
def openSocket (s : LoggedSocket) (o : SocketOutcome) : Bool × LoggedSocket :=
  if s.socket.sfd ≠ -1 then (true, s)
  else
    let (created, s) := if s.socket.server then s.createServer o else s.createClient o
    -- without a descriptor, `close` does nothing
    if created then (true, s) else (false, s.close.2)

/-- The old client socket is closed, if there is one. -/
def dropClient (s : LoggedSocket) : LoggedSocket :=
  if s.socket.cfd ≠ -1 then
    ⟨{ s.socket with cfd := -1 }, s.log ++ [.released ⟨.accepted, s.socket.cfd⟩]⟩
  else s

/-- `StreamSocket::accept`. -/
def accept (s : LoggedSocket) (e : AcceptEvent) : Bool × LoggedSocket :=
  if s.socket.sfd = -1 then (false, s)
  else
    let s := s.dropClient
    match e with
    | .client fd _ => (true, ⟨{ s.socket with cfd := fd }, s.log ++ [.acquired ⟨.accepted, fd⟩]⟩)
    | _ => (false, s)

/-- `StreamSocket::await_data`. -/
def awaitData (s : LoggedSocket) (e : AcceptEvent) (polled : PollResult) : Bool × LoggedSocket :=
  if s.socket.cfd = -1 then
    -- a descriptor may be acquired here, too
    match s.accept e with
    | (false, s) => (false, s)
    | (true, s) => (polled = .ready, s)
  else (polled = .ready, s)

/-- `StreamSocket::has_data`. -/
def hasData (s : LoggedSocket) (polled : PollResult) : Bool :=
  if s.socket.cfd = -1 then false else polled = .ready

/-- The destructor. -/
def destroy (s : LoggedSocket) : LoggedSocket :=
  if s.socket.sfd ≠ -1 then s.close.2 else s

/-- One call. After a `read` that does not return there are no more calls, but there may be here. -/
def step (s : LoggedSocket) : SocketCall → LoggedSocket
  | .openSocket o => (s.openSocket o).2
  | .close => s.close.2
  | .accept e => (s.accept e).2
  | .awaitData e polled => (s.awaitData e polled).2
  | .hasData _ => s
  | .write o timestamp send =>
      let call := s.socket.write o timestamp send
      { s with socket := { s.socket with buffer := call.buffer, lastId := call.lastId } }
  | .read stream => { s with socket := { s.socket with buffer := (s.socket.read stream).buffer } }

/-- The state after some calls of a new socket. -/
def run (server unix : Bool) (calls : List SocketCall) : LoggedSocket :=
  calls.foldl step (initial server unix)

/-- Without the log, `accept` is the one of `StreamSocket`. -/
theorem accept_eq (s : LoggedSocket) (e : AcceptEvent) (stream : ByteStream)
    (backlog : List AcceptEvent) :
    ((s.accept e).1, (s.accept e).2.socket) =
      ((s.socket.accept ⟨stream, e :: backlog⟩).1, (s.socket.accept ⟨stream, e :: backlog⟩).2.1) := by
  have hdrop : s.dropClient.socket = { s.socket with cfd := -1 } := by
    unfold dropClient
    split
    · rfl
    · rename_i hcfd
      rw [← not_not.mp hcfd]
  unfold accept StreamSocket.accept
  split
  · rfl
  · cases e with
    | client fd stream' => simp only [hdrop]
    | pollError => simp only [hdrop]
    | timeout => simp only [hdrop]
    | acceptError => simp only [hdrop]

/-! ## What is held -/

/-- The descriptor of a field. -/
def part (origin : Origin) (fd : ℤ) : Multiset Descriptor := if fd = -1 then 0 else {⟨origin, fd⟩}

/-- No more than one descriptor of an origin. -/
def Single (held : Multiset Descriptor) : Prop := ∀ origin, held.countP (·.origin = origin) ≤ 1

/-- The log settles to the descriptors of the two fields, and there have never been two of an origin at
the same time. -/
def Holds (log : List (LedgerEvent Descriptor)) (sfd cfd : ℤ) : Prop :=
  Ledger.SettlesWithin Single log (part .socket sfd + part .accepted cfd)

theorem part_closed (origin : Origin) : part origin (-1) = 0 := if_pos rfl

theorem part_of_ne (origin : Origin) {fd : ℤ} (h : fd ≠ -1) : part origin fd = {⟨origin, fd⟩} :=
  if_neg h

/-- The two fields are of different origins. -/
theorem single_parts (sfd cfd : ℤ) : Single (part .socket sfd + part .accepted cfd) := by
  have hpart (origin origin' : Origin) (fd : ℤ) :
      (part origin fd).countP (·.origin = origin') ≤ if origin = origin' then 1 else 0 := by
    unfold part
    split
    · exact Nat.zero_le _
    · rw [← Multiset.coe_singleton, Multiset.coe_countP, List.countP_singleton]
      simp only [decide_eq_true_eq, le_refl]
  intro origin
  rw [Multiset.countP_add]
  have hsocket := hpart .socket origin sfd
  have haccepted := hpart .accepted origin cfd
  cases origin with
  | socket => exact Nat.add_le_add hsocket haccepted
  | accepted => exact Nat.add_le_add hsocket haccepted

variable {log : List (LedgerEvent Descriptor)} {sfd cfd : ℤ} {s : LoggedSocket}

/-- With `sfd_` open, its descriptor is one more. -/
theorem parts_of_socket (h : sfd ≠ -1) :
    part .socket sfd + part .accepted cfd =
      (⟨.socket, sfd⟩ : Descriptor) ::ₘ (part .socket (-1) + part .accepted cfd) := by
  rw [part_of_ne .socket h, part_closed, zero_add, Multiset.singleton_add]

/-- With `cfd_` open, too. -/
theorem parts_of_accepted (h : cfd ≠ -1) :
    part .socket sfd + part .accepted cfd =
      (⟨.accepted, cfd⟩ : Descriptor) ::ₘ (part .socket sfd + part .accepted (-1)) := by
  rw [part_of_ne .accepted h, part_closed, add_zero, add_comm, Multiset.singleton_add]

theorem holds_nil : Holds [] (-1) (-1) := by
  have hsingle := single_parts (-1) (-1)
  rw [Holds, part_closed, part_closed, add_zero] at *
  exact Ledger.SettlesWithin.nil hsingle

/-- `socket` returns a descriptor. -/
theorem Holds.socket (h : Holds log (-1) cfd) (hsfd : sfd ≠ -1) :
    Holds (log ++ [.acquired ⟨.socket, sfd⟩]) sfd cfd := by
  have hsingle := single_parts sfd cfd
  rw [Holds, parts_of_socket hsfd] at *
  exact h.acquire hsingle

/-- `accept4` returns a descriptor. -/
theorem Holds.accepted (h : Holds log sfd (-1)) (hcfd : cfd ≠ -1) :
    Holds (log ++ [.acquired ⟨.accepted, cfd⟩]) sfd cfd := by
  have hsingle := single_parts sfd cfd
  rw [Holds, parts_of_accepted hcfd] at *
  exact h.acquire hsingle

/-- `sfd_` is closed. -/
theorem Holds.closeSocket (h : Holds log sfd cfd) (hsfd : sfd ≠ -1) :
    Holds (log ++ [.released ⟨.socket, sfd⟩]) (-1) cfd := by
  rw [Holds, parts_of_socket hsfd] at h
  exact h.release (single_parts (-1) cfd)

/-- `cfd_` is closed. -/
theorem Holds.closeAccepted (h : Holds log sfd cfd) (hcfd : cfd ≠ -1) :
    Holds (log ++ [.released ⟨.accepted, cfd⟩]) sfd (-1) := by
  rw [Holds, parts_of_accepted hcfd] at h
  exact h.release (single_parts sfd (-1))

/-! ## What a call does -/

/-- What holds between calls. -/
structure Inv (s : LoggedSocket) : Prop where
  /-- A client needs a listening socket. -/
  listening (haccepted : s.socket.cfd ≠ -1) : s.socket.sfd ≠ -1
  holds : Holds s.log s.socket.sfd s.socket.cfd

/-- What holds of a socket that is closed. -/
structure Closed (s : LoggedSocket) : Prop where
  sfd : s.socket.sfd = -1
  cfd : s.socket.cfd = -1

theorem Inv.closed_of_sfd (hinv : s.Inv) (hsfd : s.socket.sfd = -1) : s.Closed :=
  ⟨hsfd, not_not.mp fun hcfd => hinv.listening hcfd hsfd⟩

theorem inv_initial (server unix : Bool) : (initial server unix).Inv where
  listening haccepted := absurd rfl haccepted
  holds := holds_nil

/-- `close` closes both. -/
theorem Inv.close (hinv : s.Inv) : s.close.2.Inv ∧ s.close.2.Closed := by
  unfold LoggedSocket.close
  split
  · -- closed before, so there is no client either
    rename_i hsfd
    exact ⟨hinv, hinv.closed_of_sfd hsfd⟩
  · rename_i hsfd
    refine ⟨⟨fun haccepted => absurd rfl haccepted, ?_⟩, rfl, rfl⟩
    have hheld := hinv.holds.closeSocket hsfd
    dsimp only
    split
    · rename_i hcfd
      exact hheld.closeAccepted hcfd
    · rename_i hcfd
      rwa [not_not.mp hcfd] at hheld

/-- A result of `socket` for a socket that is closed. -/
theorem Inv.assignSocket (hinv : s.Inv) (hclosed : s.Closed) (fd : Option ℕ) :
    (s.assignSocket fd).Inv := by
  have hholds := hinv.holds
  rw [hclosed.sfd] at hholds
  cases fd with
  | none => exact ⟨fun haccepted => absurd hclosed.cfd haccepted, hholds⟩
  | some fd =>
      have hfd : (fd : ℤ) ≠ -1 := by omega
      exact ⟨fun _ => hfd, hholds.socket hfd⟩

/-- `create_server` has called `socket`, and has its descriptor when it succeeds. -/
theorem createServer_cases (s : LoggedSocket) (o : SocketOutcome) :
    (s.createServer o).2 = s.assignSocket o.socket ∧
      ((s.createServer o).1 = true → (s.createServer o).2.socket.sfd ≠ -1) := by
  unfold createServer
  dsimp only
  split
  · exact ⟨rfl, fun hc => Bool.noConfusion hc⟩
  · rename_i hsfd
    split
    · exact ⟨rfl, fun _ => hsfd⟩
    · split
      · exact ⟨rfl, fun _ => hsfd⟩
      · split <;> exact ⟨rfl, fun _ => hsfd⟩

/-- `create_client`, likewise. -/
theorem createClient_cases (s : LoggedSocket) (o : SocketOutcome) :
    (s.createClient o).2 = s.assignSocket o.socket ∧
      ((s.createClient o).1 = true → (s.createClient o).2.socket.sfd ≠ -1) := by
  unfold createClient
  dsimp only
  split
  · exact ⟨rfl, fun hc => Bool.noConfusion hc⟩
  · rename_i hsfd
    split
    · exact ⟨rfl, fun _ => hsfd⟩
    · split <;> exact ⟨rfl, fun _ => hsfd⟩

/-- `open` keeps the invariant, and leaves a socket closed that it cannot open. -/
theorem Inv.openSocket (hinv : s.Inv) (o : SocketOutcome) :
    (s.openSocket o).2.Inv ∧ ((s.openSocket o).1 = false → (s.openSocket o).2.Closed) := by
  unfold LoggedSocket.openSocket
  split
  · exact ⟨hinv, fun hc => Bool.noConfusion hc⟩
  · rename_i hsfd
    have hclosed := hinv.closed_of_sfd (not_not.mp hsfd)
    generalize hcreate : (if s.socket.server then s.createServer o else s.createClient o) = created
    obtain ⟨created, s'⟩ := created
    -- whatever it comes to, the result of `socket` is the only change
    have hs' : s' = s.assignSocket o.socket := by
      split at hcreate
      · rw [← (createServer_cases s o).1, hcreate]
      · rw [← (createClient_cases s o).1, hcreate]
    have hinv' : s'.Inv := hs' ▸ hinv.assignSocket hclosed o.socket
    cases created with
    | true => exact ⟨hinv', fun hc => Bool.noConfusion hc⟩
    | false => exact ⟨hinv'.close.1, fun _ => hinv'.close.2⟩

/-- The old client socket is gone. -/
theorem Inv.dropClient (hinv : s.Inv) :
    s.dropClient.Inv ∧ s.dropClient.socket.sfd = s.socket.sfd ∧ s.dropClient.socket.cfd = -1 := by
  unfold LoggedSocket.dropClient
  split
  · rename_i hcfd
    exact ⟨⟨fun haccepted => absurd rfl haccepted, hinv.holds.closeAccepted hcfd⟩, rfl, rfl⟩
  · rename_i hcfd
    exact ⟨hinv, rfl, not_not.mp hcfd⟩

theorem Inv.accept (hinv : s.Inv) (e : AcceptEvent) : (s.accept e).2.Inv := by
  unfold LoggedSocket.accept
  split
  · exact hinv
  · rename_i hsfd
    obtain ⟨hdropped, hsfd', hcfd⟩ := hinv.dropClient
    cases e with
    -- only a new client is a descriptor
    | client fd _ =>
        have hfd : (fd : ℤ) ≠ -1 := by omega
        have hholds := hdropped.holds
        rw [hcfd] at hholds
        exact ⟨fun _ => hsfd' ▸ hsfd, hholds.accepted hfd⟩
    | pollError => exact hdropped
    | timeout => exact hdropped
    | acceptError => exact hdropped

theorem Inv.awaitData (hinv : s.Inv) (e : AcceptEvent) (polled : PollResult) :
    (s.awaitData e polled).2.Inv := by
  have haccept := hinv.accept e
  unfold LoggedSocket.awaitData
  split
  · cases hresult : s.accept e with
    | mk accepted s' =>
        rw [hresult] at haccept
        cases accepted <;> exact haccept
  · exact hinv

/-- **Every call** keeps the invariant. -/
theorem Inv.step (hinv : s.Inv) (call : SocketCall) : (s.step call).Inv := by
  cases call with
  | openSocket o => exact (hinv.openSocket o).1
  | close => exact hinv.close.1
  | accept e => exact hinv.accept e
  | awaitData e polled => exact hinv.awaitData e polled
  | hasData polled => exact hinv
  | write o timestamp send => exact ⟨hinv.listening, hinv.holds⟩
  | read stream => exact ⟨hinv.listening, hinv.holds⟩

/-- It holds after every run. -/
theorem inv_run (server unix : Bool) (calls : List SocketCall) : (run server unix calls).Inv := by
  induction calls using List.reverseRecOn with
  | nil => exact inv_initial server unix
  | append_singleton calls call ih =>
      rw [run, List.foldl_append]
      exact ih.step call

/-- The destructor closes what is open. -/
theorem Inv.destroy (hinv : s.Inv) : s.destroy.Inv ∧ s.destroy.Closed := by
  unfold LoggedSocket.destroy
  split
  · exact hinv.close
  · rename_i hsfd
    exact ⟨hinv, hinv.closed_of_sfd (not_not.mp hsfd)⟩

/-! ## The discipline -/

/-- Every descriptor of the log has been closed once for every time it was opened, and nothing else has
been closed: by the origins of the descriptors, and by their numbers alone. -/
structure AllClosed (log : List (LedgerEvent Descriptor)) : Prop where
  settles : Ledger.Settles log 0
  numbers : Ledger.Settles (log.map (LedgerEvent.map Descriptor.number)) 0
  balanced (d : Descriptor) : log.count (.acquired d) = log.count (.released d)

/-- What the calls of a socket are to do with descriptors. -/
structure Disciplined (s : LoggedSocket) : Prop where
  /-- A client needs a listening socket. -/
  listening (haccepted : s.socket.cfd ≠ -1) : s.socket.sfd ≠ -1
  /-- The descriptors of the fields are those that are held; no more than one of an origin has ever been
  held. -/
  holds : Holds s.log s.socket.sfd s.socket.cfd
  /-- Nothing is held in the end. -/
  destroyed : AllClosed s.destroy.log
  /-- An `open` that fails leaves nothing behind. -/
  openFails (o : SocketOutcome) (hfails : (s.openSocket o).1 = false) :
    (s.openSocket o).2.isOpen = false ∧ AllClosed (s.openSocket o).2.log
  /-- There is nothing to read from a socket that is closed. -/
  readClosed (hclosed : s.isOpen = false) (stream : ByteStream) :
    (s.socket.read stream).outcome = .ok (.error .connectionClosed)
  /-- After `close`, the socket is closed. -/
  closes : s.close.2.isOpen = false ∧
    ∀ stream, (s.close.2.socket.read stream).outcome = .ok (.error .connectionClosed)

theorem isOpen_eq_false : s.isOpen = false ↔ s.socket.sfd = -1 := by
  rw [isOpen, decide_eq_false_iff_not, not_not]

/-- A socket that is closed holds nothing. -/
theorem Inv.allClosed (hinv : s.Inv) (hclosed : s.Closed) : AllClosed s.log := by
  have hsettles := hinv.holds.settles
  rw [hclosed.sfd, hclosed.cfd, part_closed, part_closed, add_zero] at hsettles
  refine ⟨hsettles, hsettles.map Descriptor.number, fun d => ?_⟩
  rw [hsettles.count_eq d, Multiset.count_zero, add_zero]

theorem Closed.read (hclosed : s.Closed) (stream : ByteStream) :
    (s.socket.read stream).outcome = .ok (.error .connectionClosed) := by
  rw [StreamSocket.read, if_pos hclosed.cfd]

theorem Inv.disciplined (hinv : s.Inv) : s.Disciplined where
  listening := hinv.listening
  holds := hinv.holds
  destroyed := hinv.destroy.1.allClosed hinv.destroy.2
  openFails o hfails :=
    have hclosed := (hinv.openSocket o).2 hfails
    ⟨isOpen_eq_false.mpr hclosed.sfd, (hinv.openSocket o).1.allClosed hclosed⟩
  readClosed hclosed := (hinv.closed_of_sfd (isOpen_eq_false.mp hclosed)).read
  closes := ⟨isOpen_eq_false.mpr hinv.close.2.sfd, hinv.close.2.read⟩

/-- **The discipline of stream sockets**, in both roles and both domains, after every sequence of calls
and whatever the system calls return. -/
theorem disciplined_run (server unix : Bool) (calls : List SocketCall) :
    (run server unix calls).Disciplined :=
  (inv_run server unix calls).disciplined

end LoggedSocket

end IpcPerformance
