import IpcPerformance.Handler.RingSlots
import IpcPerformance.Library.Refinement

/-! # Transports

What a handler class is for: a writer puts objects in, a reader takes them out in order, with headers
that number them. `Channel` says so without any bytes. A `Transport` is a handler class as it is:
a writer, a reader, and what is on its way between them.

* `Channel.machine` — the abstract queue, with a capacity.
* `Transport.Agrees` — a transport answers its calls as the abstract queue does.
* `Transport.limited` — a transport whose writer waits for room.
* `Transport.Delivers.agrees` — the rule for transports: what writer, reader and carrier do is enough. -/

namespace IpcPerformance

/-- A call on one of the two sides. -/
inductive HandlerCall
  /-- The writer calls `write`, and `get_timestamp` returns the timestamp. -/
  | write (o : DataObject) (timestamp : Int64)
  /-- The reader calls `read`. -/
  | read

/-- What the call returns. -/
inductive HandlerReply
  | written (accepted : Bool)
  | read (result : Except Fault ReadResult)

/-! ## The abstract queue -/

/-- The bytes of messages on a stream. -/
def streamBytes (queue : List (DataHeader × DataObject)) : List UInt8 := queue.flatMap imageOf

/-- How much can be on its way. -/
structure Capacity where
  /-- Whether these messages can be on their way together. -/
  holds : List (DataHeader × DataObject) → Bool
  /-- There is room for one message. -/
  holds_singleton {m : DataHeader × DataObject} (hm : IsMessage m) : holds [m] = true

namespace Capacity

/-- There is always room. -/
def unlimited : Capacity := ⟨fun _ => true, fun _ => rfl⟩

/-- So many messages. -/
def messages (n : ℕ) (hn : 0 < n) : Capacity :=
  ⟨fun queue => queue.length ≤ n, fun _ => decide_eq_true hn⟩

/-- So many bytes. -/
def bytes (n : ℕ) (hn : bufferSize ≤ n) : Capacity where
  holds queue := (streamBytes queue).length ≤ n
  holds_singleton := by
    intro m hm
    rw [streamBytes, List.flatMap_singleton, decide_eq_true_eq]
    exact hm.length_le.trans hn

end Capacity

/-- What is on its way, and the number of messages so far. -/
structure Channel where
  /-- Id of the last message. -/
  lastId : UInt32
  /-- The messages, the oldest first. -/
  queue : List (DataHeader × DataObject)

namespace Channel

/-- Nothing has been sent yet. -/
def empty : Channel := ⟨0, []⟩

/-- The message of a number: its header has that number, and the type, the size and the timestamp. -/
def message (id : UInt32) (o : DataObject) (timestamp : Int64) : DataHeader × DataObject :=
  (⟨id, o.getType, UInt16.ofNat o.bodySize, timestamp⟩, o)

/-- An object is accepted if header and body are at most `BUFFER_SIZE` bytes, and a rejected one leaves
no trace. The writer blocks when there is no room, the reader never does. -/
def machine (capacity : Capacity) : Machine HandlerCall HandlerReply Channel
  | s, .write o timestamp =>
      if o.Fits then
        let queue := s.queue ++ [message (s.lastId + 1) o timestamp]
        if capacity.holds queue then some (.written true, ⟨s.lastId + 1, queue⟩) else none
      else some (.written false, s)
  | s, .read =>
      match s.queue with
      | [] => some (.read (.ok (.error .noDataAvailable)), s)
      | m :: queue => some (.read (.ok (.ok m)), { s with queue })

/-- An abstract queue with room for everything never blocks. -/
theorem exists_machine (s : Channel) (call : HandlerCall) : ∃ p, machine .unlimited s call = some p := by
  cases call with
  | write o timestamp =>
      by_cases hfits : o.Fits
      · exact ⟨_, by rw [machine, if_pos hfits]; rfl⟩
      · exact ⟨_, by rw [machine, if_neg hfits]⟩
  | read =>
      cases hqueue : s.queue with
      | nil => exact ⟨_, by rw [machine, hqueue]⟩
      | cons m queue => exact ⟨_, by rw [machine, hqueue]⟩

end Channel

/-! ## Handler classes -/

/-- A handler class whose sends succeed in full. -/
structure Transport where
  /-- The fields of a handler. -/
  Handler : Type
  /-- What is on its way. -/
  Carrier : Type
  /-- An open writer that has not written yet, an open reader, and nothing on its way. -/
  Start : Handler → Handler → Carrier → Prop
  /-- `write`; no value when it blocks. -/
  write : Handler → Carrier → DataObject → Int64 → Option (Bool × Handler × Carrier)
  /-- `read`. -/
  read : Handler → Carrier → Except Fault ReadResult × Handler × Carrier

namespace Transport

/-- Writer, reader and carrier. -/
structure State (T : Transport) where
  /-- The writer. -/
  client : T.Handler
  /-- The reader. -/
  server : T.Handler
  /-- What is on its way. -/
  carrier : T.Carrier

/-- The calls of both sides. -/
def machine (T : Transport) : Machine HandlerCall HandlerReply T.State
  | s, .write o timestamp =>
      (T.write s.client s.carrier o timestamp).map fun (accepted, client, carrier) =>
        (.written accepted, { s with client, carrier })
  | s, .read =>
      let (result, server, carrier) := T.read s.server s.carrier
      some (.read result, { s with server, carrier })

/-- The transport answers the calls as the abstract queue does. -/
def Agrees (T : Transport) (capacity : Capacity) (calls : List HandlerCall) : Prop :=
  ∀ s : T.State, T.Start s.client s.server s.carrier →
    T.machine.outputs s calls = (Channel.machine capacity).outputs .empty calls

/-- The transport on a carrier with a limit: a write that sends something waits until there is room. -/
def limited (T : Transport) (room : T.Carrier → Bool) : Transport where
  Handler := T.Handler
  Carrier := T.Carrier
  Start := T.Start
  write client carrier o timestamp :=
    (T.write client carrier o timestamp).filter fun (accepted, _, carrier) => !accepted || room carrier
  read := T.read

/-- A transport that does not block on objects that meet `P`: the writer numbers what it accepts, and
the reader takes what is on its way from the front. -/
structure Delivers (T : Transport) (P : DataObject → Prop) where
  /-- The writer is open, with the id of its last message. -/
  Writes : T.Handler → UInt32 → Prop
  /-- The reader is open. -/
  Reads : T.Handler → Prop
  /-- The messages on their way. -/
  Carries : T.Carrier → List (DataHeader × DataObject) → Prop
  /-- It starts with nothing on its way. -/
  start {client server : T.Handler} {carrier : T.Carrier} (h : T.Start client server carrier) :
    Writes client 0 ∧ Reads server ∧ Carries carrier []
  /-- An object that fits is sent behind the others. -/
  write_of_fits {client : T.Handler} {id : UInt32} {carrier : T.Carrier}
    {queue : List (DataHeader × DataObject)} (hwrites : Writes client id)
    (hcarries : Carries carrier queue) {o : DataObject} (h : o.Fits) (timestamp : Int64) :
    ∃ client' carrier', T.write client carrier o timestamp = some (true, client', carrier') ∧
      Writes client' (id + 1) ∧
      Carries carrier' (queue ++ [Channel.message (id + 1) o timestamp])
  /-- Any other one is rejected without a trace. -/
  write_of_not_fits {client : T.Handler} {id : UInt32} (carrier : T.Carrier)
    (hwrites : Writes client id) {o : DataObject} (h : ¬ o.Fits) (hP : P o) (timestamp : Int64) :
    ∃ client', T.write client carrier o timestamp = some (false, client', carrier) ∧
      Writes client' id
  /-- There is nothing to read when nothing is on its way. -/
  read_nil {server : T.Handler} {carrier : T.Carrier} (hreads : Reads server)
    (hcarries : Carries carrier []) :
    ∃ server' carrier', T.read server carrier = (.ok (.error .noDataAvailable), server', carrier') ∧
      Reads server' ∧ Carries carrier' []
  /-- The message at the front is read. -/
  read_cons {server : T.Handler} {carrier : T.Carrier} {m : DataHeader × DataObject}
    {queue : List (DataHeader × DataObject)} (hreads : Reads server)
    (hcarries : Carries carrier (m :: queue)) :
    ∃ server' carrier', T.read server carrier = (.ok (.ok m), server', carrier') ∧
      Reads server' ∧ Carries carrier' queue

/-- A write is one of an object that meets `P`. -/
def OfWrites (P : DataObject → Prop) : HandlerCall → Prop
  | .write o _ => P o
  | .read => True

section Delivers

variable {T : Transport} {P : DataObject → Prop}

/-- Writer, reader and carrier are those of an abstract queue. -/
def Delivers.Rel (d : T.Delivers P) (room : T.Carrier → Bool) (s : (T.limited room).State)
    (t : Channel) : Prop :=
  d.Writes s.client t.lastId ∧ d.Reads s.server ∧ d.Carries s.carrier t.queue

/-- The limit of the carrier is the capacity of the queue. -/
def Delivers.Holds (d : T.Delivers P) (room : T.Carrier → Bool) (capacity : Capacity) : Prop :=
  ∀ carrier queue, d.Carries carrier queue → room carrier = capacity.holds queue

/-- Call by call, the transport with a limit does what the abstract queue does. -/
theorem Delivers.simulates (d : T.Delivers P) {room : T.Carrier → Bool} {capacity : Capacity}
    (hroom : d.Holds room capacity) :
    Machine.Simulates (T.limited room).machine (Channel.machine capacity) (OfWrites P)
      (d.Rel room) := by
  rintro ⟨client, server, carrier⟩ ⟨id, queue⟩ call ⟨hwrites, hreads, hcarries⟩ hP
  cases call with
  | write o timestamp =>
      by_cases hfits : o.Fits
      · obtain ⟨client', carrier', hwrite, hwrites', hcarries'⟩ :=
          d.write_of_fits hwrites hcarries hfits timestamp
        have hholds := hroom carrier' _ hcarries'
        simp only [machine, limited, Channel.machine, hwrite, if_pos hfits, Option.filter, hholds,
          Bool.not_true, Bool.false_or]
        split
        · exact .some ⟨rfl, hwrites', hreads, hcarries'⟩
        · exact .none
      · obtain ⟨client', hwrite, hwrites'⟩ :=
          d.write_of_not_fits carrier hwrites hfits hP timestamp
        simp only [machine, limited, Channel.machine, hwrite, if_neg hfits, Option.filter, Bool.not_false,
          Bool.true_or, if_true]
        exact .some ⟨rfl, hwrites', hreads, hcarries⟩
  | read =>
      cases queue with
      | nil =>
          obtain ⟨server', carrier', hread, hreads', hcarries'⟩ := d.read_nil hreads hcarries
          simp only [machine, limited, Channel.machine, hread]
          exact .some ⟨rfl, hwrites, hreads', hcarries'⟩
      | cons m queue =>
          obtain ⟨server', carrier', hread, hreads', hcarries'⟩ := d.read_cons hreads hcarries
          simp only [machine, limited, Channel.machine, hread]
          exact .some ⟨rfl, hwrites, hreads', hcarries'⟩

/-- **The rule for transports**: one that delivers agrees with the abstract queue of its capacity. -/
theorem Delivers.agrees (d : T.Delivers P) {room : T.Carrier → Bool} {capacity : Capacity}
    (hroom : d.Holds room capacity) {calls : List HandlerCall}
    (hP : ∀ call ∈ calls, OfWrites P call) : (T.limited room).Agrees capacity calls := by
  intro s hstart
  have hrel : d.Rel room s .empty := d.start hstart
  exact Machine.outputs_eq (d.simulates hroom) hrel hP

end Delivers

end Transport

end IpcPerformance
