import IpcPerformance.Handler.RingSlots
import IpcPerformance.Library.Runs

/-! # Shared memory

`SharedMemory::write`, `read` and `await_data` of `src/handler/shared_memory.cpp`, call by call and step
by step. The memory and the two semaphores are shared, the cursor `offset_` is not: writer and reader
count through the slots on their own.

* `SharedMemory.write`, `read` — one call that nobody interferes with.
* `RingSystem.step` — one writer and one reader whose steps interleave: the slots are copied byte by
  byte. -/

namespace IpcPerformance

namespace SharedMemory

/-- `SharedMemory::write`; no value when `sem_wait` blocks. -/
def write (self : RingHandler) (segment : Segment (Memory UInt8)) (o : DataObject) (timestamp : Int64) :
    Option (Bool × RingHandler × Segment (Memory UInt8)) :=
  if self.isOpen then
    match assemble self.buffer self.lastId o timestamp with
    | (buffer, none) => some (false, { self with buffer }, segment)
    | (buffer, some (lastId, size)) =>
        match segment.writer with
        | 0 => none
        | writer + 1 =>
            let store := segment.store.write (self.offset * bufferSize)
              (buffer.read 0 (DataHeader.headerSize + size))
            let offset := (self.offset + 1) % totalAmount
            some (true, { self with offset, lastId, buffer },
              { store, reader := segment.reader + 1, writer })
  else some (false, self, segment)

/-- `SharedMemory::read`. -/
def read (self : RingHandler) (segment : Segment (Memory UInt8)) :
    Except Fault ReadResult × RingHandler × Segment (Memory UInt8) :=
  if self.isOpen then
    match segment.reader with
    | 0 => (.ok (.error .noDataAvailable), self, segment)
    | reader + 1 =>
        let buffer := self.buffer.write 0 (segment.store.read (self.offset * bufferSize) bufferSize)
        let offset := (self.offset + 1) % totalAmount
        (slotOutcome buffer, { self with offset, buffer },
          { segment with reader, writer := segment.writer + 1 })
  else (.ok (.error .connectionClosed), self, segment)

end SharedMemory

/-! ## Interleaved steps -/

/-- Where a call of `write` is, with its local variables `header`, `obj` and `size`. -/
inductive WritePhase
  | idle
  /-- In `sem_wait(writer_)`. -/
  | waiting (header : DataHeader) (o : DataObject) (size : ℕ)
  /-- In `memcpy`, `copied` bytes of `header_size + size` being done. -/
  | copying (header : DataHeader) (o : DataObject) (size copied : ℕ)
  /-- Before `offset_` is advanced. -/
  | copied (header : DataHeader) (o : DataObject)
  /-- Before `sem_post(reader_)`. The slot is remembered for the log. -/
  | advanced (header : DataHeader) (o : DataObject) (slot : ℕ)

/-- Where a call of `read` or `await_data` is. -/
inductive ReadPhase
  | idle
  /-- In `memcpy`, `copied` bytes of `BUFFER_SIZE` being done. -/
  | copying (copied : ℕ)
  /-- Before `offset_` is advanced. -/
  | copied
  /-- Before `sem_post(writer_)`. -/
  | advanced
  /-- Before the message is decoded. -/
  | posted
  /-- In `await_data`, before `sem_post(reader_)`. -/
  | awaiting

/-- A message whose write has returned true: the slot it was copied to, header and object. -/
structure LogEntry where
  /-- The slot. -/
  slot : ℕ
  /-- Header and object. -/
  message : DataHeader × DataObject

/-- One writer and one reader on a segment. -/
structure RingSystem where
  /-- What they share. -/
  segment : Segment (Memory UInt8)
  /-- The handler of the writer. -/
  client : RingHandler
  /-- Where the writer is. -/
  writePhase : WritePhase
  /-- The handler of the reader. -/
  server : RingHandler
  /-- Where the reader is. -/
  readPhase : ReadPhase
  /-- Whether `await_data` has returned true and no read has started since. -/
  awaited : Bool
  /-- How the calls of `read` have ended, in order. -/
  results : List (Except Fault ReadResult)
  /-- The messages whose write has returned true, in order. -/
  log : List LogEntry
  /-- Number of messages of the log that have been copied out of their slot. -/
  taken : ℕ

/-- What may happen next. -/
inductive RingAction
  /-- The writer calls `write`. -/
  | write (o : DataObject) (timestamp : Int64)
  /-- The writer goes on with its call. -/
  | writer
  /-- The wait of the writer is interrupted. -/
  | interrupt
  /-- The reader calls `read`. -/
  | read
  /-- The reader calls `read`, and `sem_trywait` fails for another reason than an empty ring. -/
  | readFails
  /-- The reader calls `await_data`, and gets the semaphore. -/
  | await
  /-- The reader calls `await_data`, and does not get the semaphore. -/
  | awaitFails
  /-- The reader goes on with its call. -/
  | reader

namespace RingSystem

/-- The next step of a call of `write`. -/
def stepWriter (s : RingSystem) : Option RingSystem :=
  match s.writePhase with
  | .idle => none
  | .waiting header o size =>
      match s.segment.writer with
      | 0 => none
      | writer + 1 => some { s with
          segment := { s.segment with writer }
          writePhase := .copying header o size 0 }
  | .copying header o size copied =>
      if copied < DataHeader.headerSize + size then
        let store := s.segment.store.write (s.client.offset * bufferSize + copied)
          [s.client.buffer copied]
        some { s with
          segment := { s.segment with store }
          writePhase := .copying header o size (copied + 1) }
      else some { s with writePhase := .copied header o }
  | .copied header o =>
      some { s with
        client := { s.client with offset := (s.client.offset + 1) % totalAmount }
        writePhase := .advanced header o s.client.offset }
  | .advanced header o slot =>
      some { s with
        segment := { s.segment with reader := s.segment.reader + 1 }
        writePhase := .idle
        log := s.log ++ [⟨slot, header, o⟩] }

/-- The next step of a call of `read` or `await_data`. -/
def stepReader (s : RingSystem) : Option RingSystem :=
  match s.readPhase with
  | .idle => none
  | .copying copied =>
      if copied < bufferSize then
        let buffer := s.server.buffer.write copied
          [s.segment.store (s.server.offset * bufferSize + copied)]
        some { s with server := { s.server with buffer }, readPhase := .copying (copied + 1) }
      else some { s with readPhase := .copied }
  | .copied =>
      some { s with
        server := { s.server with offset := (s.server.offset + 1) % totalAmount }
        readPhase := .advanced
        taken := s.taken + 1 }
  | .advanced =>
      some { s with
        segment := { s.segment with writer := s.segment.writer + 1 }
        readPhase := .posted }
  | .posted =>
      some { s with readPhase := .idle, results := s.results ++ [slotOutcome s.server.buffer] }
  | .awaiting =>
      some { s with
        segment := { s.segment with reader := s.segment.reader + 1 }
        readPhase := .idle
        awaited := true }

/-- The start of a call of `write`, before any semaphore is touched. -/
def startWrite (s : RingSystem) (o : DataObject) (timestamp : Int64) : RingSystem :=
  match assemble s.client.buffer s.client.lastId o timestamp with
  | (buffer, none) => { s with client := { s.client with buffer } }
  | (buffer, some (lastId, size)) =>
      { s with
        client := { s.client with buffer, lastId }
        writePhase := .waiting (outgoingHeader lastId o size timestamp) o size }

/-- The start of a call of `read`: `sem_trywait(reader_)`. -/
def startRead (s : RingSystem) : RingSystem :=
  match s.segment.reader with
  | 0 => { s with awaited := false, results := s.results ++ [.ok (.error .noDataAvailable)] }
  | reader + 1 =>
      { s with segment := { s.segment with reader }, readPhase := .copying 0, awaited := false }

/-- One step of the system; an action that is not possible has none. -/
def step (s : RingSystem) : RingAction → Option RingSystem
  | .write o timestamp =>
      match s.writePhase with
      | .idle => some (s.startWrite o timestamp)
      | _ => none
  | .writer => s.stepWriter
  | .interrupt =>
      match s.writePhase with
      | .waiting _ _ _ => some { s with writePhase := .idle }
      | _ => none
  | .read =>
      match s.readPhase with
      | .idle => some s.startRead
      | _ => none
  | .readFails =>
      match s.readPhase with
      | .idle =>
          some { s with awaited := false, results := s.results ++ [.ok (.error .readError)] }
      | _ => none
  | .await =>
      match s.readPhase, s.segment.reader with
      | .idle, reader + 1 =>
          some { s with segment := { s.segment with reader }, readPhase := .awaiting }
      | _, _ => none
  | .awaitFails =>
      match s.readPhase with
      | .idle => some s
      | _ => none
  | .reader => s.stepReader

/-- Both handlers have been opened, on a new segment of any contents. -/
def initial (memory clientBuffer serverBuffer : Memory UInt8) : RingSystem where
  segment := ⟨memory, 0, totalAmount⟩
  client := ⟨true, 0, 0, clientBuffer⟩
  writePhase := .idle
  server := ⟨true, 0, 0, serverBuffer⟩
  readPhase := .idle
  awaited := false
  results := []
  log := []
  taken := 0

end RingSystem

end IpcPerformance
