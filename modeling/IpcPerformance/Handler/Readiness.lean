import IpcPerformance.Handler.Agreement
import IpcPerformance.Library.Context

/-! # What `has_data` and `await_data` say

Both tell whether there is something to read, and neither takes it away: the descriptors are polled, the
rings look at their semaphore, and D-Bus looks at its dispatch status. `await_data` is the same with a
longer timeout; its result is that of the moment it returns.

* `HandlerClass.exists_simulates` — every class is an abstract queue, and has data when the queue has.
* `HandlerClass.hasData_iff` — after any calls, `read` returns a message exactly when there is data. -/

namespace IpcPerformance

/-- `ipc::poll` of a descriptor, in the `has_data` of the handlers that have one. -/
def pollData {α : Type} (fd : ℤ) (pending : List α) : Bool := fd ≠ -1 ∧ pending ≠ []

/-- An open descriptor has data when something is pending. -/
theorem pollData_iff {α : Type} {fd : ℤ} (hopen : fd ≠ -1) (pending : List α) :
    pollData fd pending = true ↔ pending ≠ [] := by
  rw [pollData, decide_eq_true_iff, and_iff_right hopen]

/-- `StreamSocket::has_data`. -/
def StreamSocket.hasData (socket : StreamSocket) (bytes : List UInt8) : Bool := pollData socket.cfd bytes

/-- `DatagramSocket::has_data`. -/
def DatagramSocket.hasData (socket : DatagramSocket) (queue : List (List UInt8)) : Bool :=
  pollData socket.sfd queue

/-- `Fifo::has_data`. -/
def Fifo.hasData (fifo : Fifo) (bytes : List UInt8) : Bool := pollData fifo.fd bytes

/-- `MessageQueue::has_data`. -/
def MessageQueue.hasData (queue : MessageQueue) (messages : List (List UInt8)) : Bool :=
  pollData queue.mqd messages

/-- `SharedMemory::has_data` and `SharedFile::has_data`. -/
def RingHandler.hasData {σ : Type} (handler : RingHandler) (segment : Segment σ) : Bool :=
  handler.isOpen ∧ 0 < segment.reader

/-- `DBus::has_data`: `DBUS_DISPATCH_DATA_REMAINS`, whatever messages these are. -/
def DBus.hasData (connection : DBus) (messages : List (Option MethodCall)) : Bool :=
  connection.isOpen && !messages.isEmpty

/-- `SharedMemory::await_data` and `SharedFile::await_data`, at the moment of the timeout: the semaphore
is decremented if it can be, and incremented again. -/
def RingHandler.awaitData {σ : Type} (handler : RingHandler) (segment : Segment σ) :
    Bool × Segment σ :=
  if handler.isOpen then
    match segment.reader with
    | 0 => (false, segment)
    | n + 1 =>
        let taken := { segment with reader := n }
        (true, { taken with reader := taken.reader + 1 })
  else (false, segment)

/-- The rings wait for what they have, and leave it. -/
theorem RingHandler.awaitData_eq {σ : Type} (handler : RingHandler) (segment : Segment σ) :
    handler.awaitData segment = (handler.hasData segment, segment) := by
  obtain ⟨store, reader, writer⟩ := segment
  unfold awaitData hasData
  cases handler.isOpen with
  | false => simp
  | true => cases reader <;> simp

namespace HandlerClass

/-- `has_data` of a class, for its reader. -/
def hasData : (c : HandlerClass) → c.transport.State → Bool
  | streamSocket _, s => StreamSocket.hasData s.server s.carrier
  | datagramSocket _, s => DatagramSocket.hasData s.server s.carrier
  | fifo _, s => Fifo.hasData s.server s.carrier
  | messageQueue, s => MessageQueue.hasData s.server s.carrier
  | sharedMemory, s => RingHandler.hasData s.server s.carrier
  | sharedFile, s => RingHandler.hasData s.server s.carrier
  | dbus _, s => DBus.hasData s.server s.carrier

/-- There are bytes on a stream when there are messages on it. -/
theorem ne_nil_of_carriesStream {bytes : List UInt8} {queue : List (DataHeader × DataObject)}
    (h : CarriesStream bytes queue) : bytes ≠ [] ↔ queue ≠ [] := by
  rw [h.1]
  cases queue with
  | nil => exact iff_of_false (fun hne => hne rfl) fun hne => hne rfl
  | cons m queue =>
      refine iff_of_true ?_ (List.cons_ne_nil _ _)
      rw [streamBytes, List.flatMap_cons]
      exact imageOf_append_ne_nil m _

/-- There are as many messages in the kernel as there are messages. -/
theorem ne_nil_of_carriesMessages {images : List (List UInt8)}
    {queue : List (DataHeader × DataObject)} (h : CarriesMessages images queue) :
    images ≠ [] ↔ queue ≠ [] := by
  rw [h.1, Ne, List.map_eq_nil_iff]

/-- A ring counts its messages. -/
theorem hasData_of_rel {σ : Type} {calls : RingCalls σ} {s : calls.transport.State} {t : Channel}
    (h : calls.Rel s t) : RingHandler.hasData s.server s.carrier = true ↔ t.queue ≠ [] := by
  have hreader : s.carrier.reader = t.queue.length := h.ring.reader_eq
  refine decide_eq_true_iff.trans ((and_iff_right h.server_open).trans ?_)
  rw [hreader, List.length_pos_iff]

/-- **Every class is an abstract queue**, as long as D-Bus is not given what it accepts beyond the
others, and it has data when the queue has. -/
theorem exists_simulates (c : HandlerClass) :
    ∃ R : c.transport.State → Channel → Prop,
      (∀ s, c.transport.Start s.client s.server s.carrier → R s .empty) ∧
      Machine.Simulates c.transport.machine (Channel.machine c.capacity)
        (Transport.OfWrites fun o => c.isBus = true → ¬ o.Fits → bufferSize < o.bodySize) R ∧
      ∀ s t, R s t → (c.hasData s = true ↔ t.queue ≠ []) := by
  have hdelivers : ∀ {T : Transport} (d : T.Delivers fun _ => True) {P : HandlerCall → Prop}
      {room : T.Carrier → Bool} {capacity : Capacity}, d.Holds room capacity →
      Machine.Simulates (T.limited room).machine (Channel.machine capacity) P (d.Rel room) := by
    intro T d P room capacity hroom s t call hrel _
    exact d.simulates hroom s t call hrel (by cases call <;> trivial)
  have hring : ∀ {σ : Type} (calls : RingCalls σ) {P : HandlerCall → Prop},
      Machine.Simulates calls.transport.machine (Channel.machine slots) P calls.Rel := by
    intro σ calls P s t call hrel _
    exact calls.simulates s t call hrel trivial
  cases c with
  | streamSocket buffer =>
      refine ⟨StreamSocket.delivers.Rel _, fun s h => StreamSocket.delivers.start h,
        hdelivers StreamSocket.delivers (holds_stream buffer), ?_⟩
      rintro s t ⟨-, hopen, hcarries⟩
      exact (pollData_iff hopen _).trans (ne_nil_of_carriesStream hcarries)
  | datagramSocket route =>
      refine ⟨(DatagramSocket.delivers route).Rel _, fun s h => (DatagramSocket.delivers route).start h,
        hdelivers (DatagramSocket.delivers route) (holds_datagram route), ?_⟩
      rintro s t ⟨-, hopen, hcarries⟩
      exact (pollData_iff hopen _).trans (ne_nil_of_carriesMessages hcarries)
  | fifo buffer =>
      refine ⟨Fifo.delivers.Rel _, fun s h => Fifo.delivers.start h,
        hdelivers Fifo.delivers (holds_fifo buffer), ?_⟩
      rintro s t ⟨-, hopen, hcarries⟩
      exact (pollData_iff hopen _).trans (ne_nil_of_carriesStream hcarries)
  | messageQueue =>
      refine ⟨MessageQueue.delivers.Rel _, fun s h => MessageQueue.delivers.start h,
        hdelivers MessageQueue.delivers holds_messageQueue, ?_⟩
      rintro s t ⟨-, hopen, hcarries⟩
      exact (pollData_iff hopen _).trans (ne_nil_of_carriesMessages hcarries)
  | sharedMemory =>
      exact ⟨_, fun s h => SharedMemory.calls.rel_start h, hring SharedMemory.calls,
        fun s t h => hasData_of_rel h⟩
  | sharedFile =>
      exact ⟨_, fun s h => SharedFile.calls.rel_start h, hring SharedFile.calls,
        fun s t h => hasData_of_rel h⟩
  | dbus bus =>
      have hroom : (DBus.delivers bus).Holds (fun _ => true) .unlimited := fun _ _ _ => rfl
      refine ⟨(DBus.delivers bus).Rel fun _ => true, fun s h => (DBus.delivers bus).start h, ?_, ?_⟩
      · intro s t call hrel hP
        refine (DBus.delivers bus).simulates hroom s t call hrel ?_
        cases call with
        | write o timestamp => exact hP rfl
        | read => trivial
      · rintro s t ⟨-, hopen, hcarries, -⟩
        have hdata : DBus.hasData s.server s.carrier = !t.queue.isEmpty := by
          unfold DBus.hasData
          rw [hopen, hcarries, List.isEmpty_map, Bool.true_and]
        rw [hasData, hdata]
        cases t.queue <;> simp

/-- **Readiness.** After any calls of the two sides, `has_data` is true exactly when the next `read`
returns a message, and false exactly when it reports that there is none. -/
theorem hasData_iff (c : HandlerClass) {s t : c.transport.State} {calls : List HandlerCall}
    (hstart : c.transport.Start s.client s.server s.carrier)
    (hcalls : ∀ o timestamp, HandlerCall.write o timestamp ∈ calls → c.isBus = true → ¬ o.Between)
    (hrun : runAll c.transport.machine.advance s calls = some t) :
    (c.hasData t = true ↔ ∃ m u, c.transport.machine t .read = some (.read (.ok (.ok m)), u)) ∧
      (c.hasData t = false ↔
        ∃ u, c.transport.machine t .read = some (.read (.ok (.error .noDataAvailable)), u)) := by
  obtain ⟨R, hR, hsim, hdata⟩ := c.exists_simulates
  have hP : ∀ call ∈ calls,
      Transport.OfWrites (fun o => c.isBus = true → ¬ o.Fits → bufferSize < o.bodySize) call := by
    rintro (⟨o, timestamp⟩ | _) hmem
    · intro hdbus hfits
      by_contra hle
      exact hcalls o timestamp hmem hdbus ⟨hfits, Nat.le_of_not_lt hle⟩
    · trivial
  obtain ⟨x, hx⟩ := hsim.exists_rel (hR s hstart) hP hrun
  rw [← Bool.not_eq_true, hdata t x hx]
  cases hqueue : x.queue with
  | nil =>
      have hread : Channel.machine c.capacity x .read =
          some (.read (.ok (.error .noDataAvailable)), x) := by
        rw [Channel.machine, hqueue]
      obtain ⟨u, hu, -⟩ := hsim.exists_answer (i := .read) hx trivial hread
      refine ⟨iff_of_false (fun h => h rfl) ?_, iff_of_true (fun h => h rfl) ⟨u, hu⟩⟩
      rintro ⟨m, u', hu'⟩
      rw [hu] at hu'
      cases hu'
  | cons m queue =>
      have hread : Channel.machine c.capacity x .read =
          some (.read (.ok (.ok m)), { x with queue }) := by
        rw [Channel.machine, hqueue]
      obtain ⟨u, hu, -⟩ := hsim.exists_answer (i := .read) hx trivial hread
      refine ⟨iff_of_true (List.cons_ne_nil _ _) ⟨m, u, hu⟩,
        iff_of_false (fun h => h (List.cons_ne_nil _ _)) ?_⟩
      rintro ⟨u', hu'⟩
      rw [hu] at hu'
      cases hu'

/-- The 64 KiB of a pipe. -/
def pipeBuffer : KernelBuffer := ⟨65536, by decide⟩

/-- A pipe that has just been opened by both. -/
def openedPipe : (fifo pipeBuffer).transport.State := ⟨⟨3, 0, fun _ => 0⟩, ⟨3, 0, fun _ => 0⟩, []⟩

/-- After a ping there is data. -/
theorem hasData_iff_ping :
    ∃ t, runAll (fifo pipeBuffer).transport.machine.advance openedPipe [.write .ping 7] = some t ∧
      ((fifo pipeBuffer).hasData t = true ↔
        ∃ m u, (fifo pipeBuffer).transport.machine t .read = some (.read (.ok (.ok m)), u)) ∧
      ((fifo pipeBuffer).hasData t = false ↔
        ∃ u, (fifo pipeBuffer).transport.machine t .read =
          some (.read (.ok (.error .noDataAvailable)), u)) := by
  obtain ⟨t, hrun⟩ := Option.isSome_iff_exists.mp
    (show (runAll (fifo pipeBuffer).transport.machine.advance openedPipe
      [.write .ping 7]).isSome = true from rfl)
  have hstart : (fifo pipeBuffer).transport.Start openedPipe.client openedPipe.server
      openedPipe.carrier := by
    refine ⟨⟨?_, rfl⟩, ?_, rfl⟩ <;> decide
  exact ⟨t, hrun, hasData_iff (fifo pipeBuffer) hstart (fun _ _ _ => nofun) hrun⟩

end HandlerClass

end IpcPerformance
