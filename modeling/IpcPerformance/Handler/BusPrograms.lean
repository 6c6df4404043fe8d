import IpcPerformance.Handler.BusDaemon
import IpcPerformance.Library.Programs

/-! # The calls of a D-Bus handler

The methods of `src/handler/dbus.cpp` as programs of calls of libdbus, any of which may fail. A server asks
the bus for a name, without letting others take it away.

* `SessionBus.answer` — what a call does, on any bus.
* `DBus.method` — the methods.
* `DBus.value_writeProgram`, `DBus.value_readProgram` — `write` and `read` do what they do when all of it
  happens at once. -/

namespace IpcPerformance

/-! ## The bus -/

variable {P Q : Type}

/-- A bus with the handlers `P`, and a record of what they have called. -/
structure SessionBus (P : Type) {Q : Type} (daemon : BusDaemon Q) where
  /-- What has become of the bus. -/
  state : daemon.State
  /-- For the record, what each handler has called. -/
  log : P → List (BusCall × BusReply)

namespace SessionBus

/-- Nothing has happened yet. -/
def initial (P : Type) (daemon : BusDaemon Q) : SessionBus P daemon := ⟨daemon.initial, fun _ => []⟩

variable {daemon : BusDaemon Q}

/-- The process owns the name, unless it has lost a connection. -/
def Owns (bus : SessionBus P daemon) (q : Q) : Prop :=
  daemon.owner bus.state = some q ∨ daemon.lost bus.state q

variable [DecidableEq P]

/-- A call of a handler is recorded. -/
def record (bus : SessionBus P daemon) (p : P) (state : daemon.State) (c : BusCall) (r : BusReply) :
    SessionBus P daemon :=
  ⟨state, Function.update bus.log p (bus.log p ++ [(c, r)])⟩

@[simp] theorem log_record (bus : SessionBus P daemon) (p : P) (state : daemon.State) (c : BusCall)
    (r : BusReply) : (bus.record p state c r).log p = bus.log p ++ [(c, r)] :=
  Function.update_self ..

theorem log_record_of_ne (bus : SessionBus P daemon) {p q : P} (hq : q ≠ p) (state : daemon.State)
    (c : BusCall) (r : BusReply) : (bus.record p state c r).log q = bus.log q :=
  Function.update_of_ne hq ..

/-- **What a call does**; the handlers of one process have one connection. -/
def answer (process : P → Q) (p : P) (bus : SessionBus P daemon) (c : BusCall) (r : BusReply) :
    Option (SessionBus P daemon) :=
  if c.returns r then
    (daemon.answer (process p) bus.state c r).map fun state => bus.record p state c r
  else none

/-- It returns something the call can return. -/
theorem answer_eq_some {process : P → Q} {p : P} {bus bus' : SessionBus P daemon} {c : BusCall}
    {r : BusReply} (h : answer process p bus c r = some bus') :
    c.returns r = true ∧ ∃ state, daemon.answer (process p) bus.state c r = some state ∧
      bus' = bus.record p state c r := by
  unfold answer at h
  split at h
  · rename_i hreturns
    obtain ⟨state, hstate, rfl⟩ := Option.map_eq_some_iff.mp h
    exact ⟨hreturns, state, hstate, rfl⟩
  · cases h

end SessionBus

/-! ## The methods -/

/-- A program of calls of libdbus. -/
abbrev BusProgram (α : Type) : Type := Program BusCall BusReply α

/-- An error is freed, if there is one. -/
def freeing {α : Type} (r : BusReply) (next : BusProgram α) : BusProgram α :=
  if r.error then .call .freeError fun _ => next else next

namespace DBus

/-- `DBus::create_client`. -/
def createClient (dbus : DBus) : BusProgram (Bool × DBus) :=
  .call .busGet fun r =>
    let dbus := { dbus with isOpen := r.given }
    freeing r (.ret (dbus.isOpen, dbus))

/-- `DBus::create_server`. -/
def createServer (dbus : DBus) : BusProgram (Bool × DBus) :=
  .call .busGet fun r =>
    let dbus := { dbus with isOpen := r.given }
    freeing r <|
      if dbus.isOpen then
        .call .requestName fun r => freeing r (.ret (decide (r.status = 1), dbus))
      else .ret (false, dbus)

/-- `DBus::close`; nobody looks for an error. -/
def closeHandler (server : Bool) (dbus : DBus) : BusProgram (Bool × DBus) :=
  if dbus.isOpen then
    .call (if server then .releaseName else .flush) fun _ =>
      .call .unrefConnection fun _ => .ret (true, { dbus with isOpen := false })
  else .ret (false, dbus)

/-- `DBus::open`. -/
def openHandler (server : Bool) (dbus : DBus) : BusProgram (Bool × DBus) :=
  if dbus.isOpen then .ret (true, dbus)
  else
    (if server then dbus.createServer else dbus.createClient).bind fun (created, dbus) =>
      if created then .ret (true, dbus)
      else (dbus.closeHandler server).bind fun (_, dbus) => .ret (false, dbus)

/-- `DBus::~DBus`. -/
def destroy (server : Bool) (dbus : DBus) : BusProgram DBus :=
  if dbus.isOpen then (dbus.closeHandler server).bind fun (_, dbus) => .ret dbus else .ret dbus

/-- `DBus::await_data` and `DBus::has_data`, which wait for `WAIT_TIME` or for a millisecond;
`DBUS_DISPATCH_DATA_REMAINS` is zero. -/
def poll (milliseconds : ℕ) (dbus : DBus) : BusProgram Bool :=
  if dbus.isOpen then
    .call (.readWrite milliseconds) fun r =>
      if r.status = 0 then .ret false
      else .call .dispatchStatus fun r => .ret (decide (r.status = 0))
  else .ret false

/-- A call for the message that is being built; if it fails, the message is given back. -/
def building (c : BusCall) (dbus : DBus) (next : BusProgram (Bool × DBus)) : BusProgram (Bool × DBus) :=
  .call c fun r =>
    if r.status = 0 then .call .unrefMessage fun _ => .ret (false, dbus) else next

/-- The second half of `DBus::write`: the arguments, and the message is sent. -/
def sendMessage (dbus : DBus) (timestamp : Int64) (bytes : List UInt8) : BusProgram (Bool × DBus) :=
  building (.appendBasic (.uint32 dbus.lastId)) dbus <|
  building (.appendBasic (.int64 timestamp)) dbus <|
  building .openContainer dbus <|
  building (.appendBytes bytes) dbus <|
  building .closeContainer dbus <|
  building .send dbus <|
  .call .unrefMessage fun _ => .ret (true, dbus)

/-- `DBus::write`. -/
def writeProgram (dbus : DBus) (o : DataObject) (timestamp : Int64) : BusProgram (Bool × DBus) :=
  if dbus.isOpen then
    .call (.newMethodCall (typePath o.getType)) fun r =>
      if r.status = 0 then .ret (false, dbus)
      else
        .call .setNoReply fun _ =>
          let (size, buffer) := o.serialize dbus.buffer 0 bufferSize
          if size = -1 then .call .unrefMessage fun _ => .ret (false, { dbus with buffer })
          else
            sendMessage { dbus with buffer, lastId := dbus.lastId + 1 } timestamp
              (buffer.read 0 size.toNat)
  else .ret (false, dbus)

/-- `DBus::read`: what is done between the two calls only looks at the message. When it does not return,
nor is the message given back. -/
def readProgram (dbus : DBus) : BusProgram (Except Fault ReadResult) :=
  if dbus.isOpen then
    .call .popMessage fun r =>
      let call := dbus.read r.message
      if call.unrefs = 0 then .ret call.outcome else .call .unrefMessage fun _ => .ret call.outcome
  else .ret (.ok (.error .connectionClosed))

/-! ### What they do at once -/

/-- A message that is being built, when all calls are answered at once. -/
theorem value_building (reply : BusCall → BusReply) (c : BusCall) (dbus : DBus)
    (next : BusProgram (Bool × DBus)) : (building c dbus next).value reply =
      if (reply c).status = 0 then (false, dbus) else next.value reply := by
  rw [building, Program.value]
  split <;> rfl

/-- The message is sent, or there is no memory for it. -/
theorem value_sendMessage (reply : BusCall → BusReply) (dbus : DBus) (timestamp : Int64)
    (bytes : List UInt8) : ∃ sent, (dbus.sendMessage timestamp bytes).value reply = (sent, dbus) := by
  simp only [sendMessage, value_building]
  split_ifs <;> exact ⟨_, rfl⟩

/-- **It is `DBus::write`**, apart from what happens in between: whatever is answered, the message gets as
far as it does at some stage. -/
theorem value_writeProgram (reply : BusCall → BusReply) (dbus : DBus) (o : DataObject)
    (timestamp : Int64) : ∃ stage, (dbus.writeProgram o timestamp).value reply =
      let call := dbus.write o timestamp stage
      (call.result, { dbus with buffer := call.buffer, lastId := call.lastId }) := by
  obtain ⟨isOpen, lastId, buffer⟩ := dbus
  cases isOpen with
  | false => exact ⟨.noMessage, rfl⟩
  | true =>
      unfold writeProgram
      rw [if_pos rfl, Program.value]
      by_cases hmessage : (reply (.newMethodCall (typePath o.getType))).status = 0
      · refine ⟨.noMessage, ?_⟩
        rw [if_pos hmessage]
        rfl
      · rw [if_neg hmessage, Program.value]
        rcases hserialize : o.serialize buffer 0 bufferSize with ⟨size, buffer'⟩
        by_cases hsize : size = -1
        · refine ⟨.sent, ?_⟩
          simp [write, hserialize, hsize, Program.value]
        · obtain ⟨sent, hsent⟩ := value_sendMessage reply ⟨true, lastId + 1, buffer'⟩ timestamp
            (buffer'.read 0 size.toNat)
          refine ⟨if sent then .sent else .outOfMemory, ?_⟩
          cases sent <;> simp [write, hserialize, hsize, hsent]

/-- **It is `DBus::read`**, and the message is given back as often as it says. -/
theorem value_readProgram (reply : BusCall → BusReply) (dbus : DBus) :
    dbus.readProgram.value reply = (dbus.read (reply .popMessage).message).outcome := by
  unfold readProgram
  by_cases hopen : dbus.isOpen = true
  · rw [if_pos hopen, Program.value]
    dsimp only
    split <;> rfl
  · rw [if_neg hopen]
    simp [read, hopen, Program.value]

end DBus

/-! ## Handlers that are used at the same time -/

/-- A call of a method. -/
inductive BusJob
  | openHandler
  | closeHandler
  | destroy
  | awaitData
  | hasData
  | write (o : DataObject) (timestamp : Int64)
  | read

/-- What a method has returned. -/
inductive BusResult
  | opened (success : Bool)
  | closed (success : Bool)
  | destroyed
  | polled (data : Bool)
  | written (accepted : Bool)
  | read (outcome : Except Fault ReadResult)

/-- A handler, and what its last method has returned. -/
structure BusParty where
  /-- The handler. -/
  handler : DBus
  /-- The last result. -/
  last : Option BusResult

namespace DBus

/-- A method of a handler. -/
def method (server : Bool) (s : BusParty) : BusJob → BusProgram BusParty
  | .openHandler =>
      (s.handler.openHandler server).bind fun (success, handler) =>
        .ret ⟨handler, some (.opened success)⟩
  | .closeHandler =>
      (s.handler.closeHandler server).bind fun (success, handler) =>
        .ret ⟨handler, some (.closed success)⟩
  | .destroy => (s.handler.destroy server).bind fun handler => .ret ⟨handler, some .destroyed⟩
  | .awaitData => (s.handler.poll 5000).bind fun data => .ret { s with last := some (.polled data) }
  | .hasData => (s.handler.poll 1).bind fun data => .ret { s with last := some (.polled data) }
  | .write o timestamp =>
      (s.handler.writeProgram o timestamp).bind fun (accepted, handler) =>
        .ret ⟨handler, some (.written accepted)⟩
  | .read => s.handler.readProgram.bind fun outcome => .ret { s with last := some (.read outcome) }

/-- Any number of handlers of one name; some are servers. -/
def system [DecidableEq P] (daemon : BusDaemon Q) (process : P → Q) (server : P → Bool) :
    Parallel P (SessionBus P daemon) BusCall BusReply BusParty BusJob where
  answer := SessionBus.answer process
  method p := method (server p)

/-- New handlers. -/
def start [DecidableEq P] (daemon : BusDaemon Q) (process : P → Q) (server : P → Bool)
    (handlers : P → DBus) : (system daemon process server).State :=
  ⟨.initial P daemon, fun p => .ret ⟨handlers p, none⟩⟩

end DBus

end IpcPerformance
