import IpcPerformance.Handler.RingSlots

/-! # Shared files

`SharedFile::write` and `read` of `src/handler/shared_file.cpp`: the ring of `SharedMemory`, with a
file in place of the memory. The operations of the stream and of the semaphores may fail; what has
been written reaches the file when it is flushed, and a read at the end of the file is short.

* `SharedFile.write`, `read` — the calls, given which operations succeed.
* `SharedFile.calls` — with no failure they are the calls of a ring. -/

namespace IpcPerformance

/-- What is in the file. -/
structure FileContents where
  /-- The bytes, zero behind the end. -/
  bytes : Memory UInt8
  /-- Number of bytes. -/
  size : ℕ

namespace FileContents

/-- The file as the server opens it. -/
def empty : FileContents := ⟨fun _ => 0, 0⟩

/-- The file after bytes have been written at a position. -/
def write (file : FileContents) (pos : ℕ) (cells : List UInt8) : FileContents :=
  ⟨file.bytes.write pos cells, max file.size (pos + cells.length)⟩

/-- Up to `n` bytes from a position on. -/
def read (file : FileContents) (pos n : ℕ) : List UInt8 := file.bytes.read pos (min n (file.size - pos))

end FileContents

/-- Which operations of a call of `write` succeed. -/
structure WriteFate where
  /-- `file_.seekp`. -/
  seekp : Bool
  /-- `sem_wait(writer_)`. -/
  wait : Bool
  /-- `file_.write`. -/
  write : Bool
  /-- `file_.flush`. -/
  flush : Bool
  /-- `sem_post(reader_)`, at the end. -/
  postReader : Bool
  /-- `sem_post(writer_)`, when `file_.write` has failed. -/
  postWriter : Bool

/-- Which operations of a call of `read` succeed. -/
structure ReadFate where
  /-- `sem_trywait(reader_)`; a count of zero is no failure. -/
  tryWait : Bool
  /-- `file_.seekg`. -/
  seekg : Bool
  /-- `file_.read`; reaching the end of the file is a success. -/
  read : Bool
  /-- The bytes that have come before `file_.read` failed. -/
  received : List UInt8
  /-- `sem_post(writer_)`, at the end. -/
  postWriter : Bool
  /-- `sem_post(reader_)`, when `file_.seekg` or `file_.read` has failed. -/
  postReader : Bool

/-- Everything succeeds. -/
def WriteFate.success : WriteFate := ⟨true, true, true, true, true, true⟩

/-- Everything succeeds. -/
def ReadFate.success : ReadFate := ⟨true, true, true, [], true, true⟩

/-- The count of a semaphore after `sem_post`. -/
def semPost (success : Bool) (count : ℕ) : ℕ := if success then count + 1 else count

theorem semPost_le (success : Bool) (count : ℕ) : semPost success count ≤ count + 1 := by
  unfold semPost
  split <;> omega

namespace SharedFile

/-- `SharedFile::write`; no value when `sem_wait` blocks. What a failed flush leaves in the stream is taken
as lost, though a later `seekp` may still write it. -/
def write (self : RingHandler) (segment : Segment FileContents) (o : DataObject) (timestamp : Int64)
    (fate : WriteFate) : Option (Bool × RingHandler × Segment FileContents) :=
  if self.isOpen then
    match assemble self.buffer self.lastId o timestamp with
    | (buffer, none) => some (false, { self with buffer }, segment)
    | (buffer, some (lastId, size)) =>
        let self := { self with lastId, buffer }
        if !fate.seekp then some (false, self, segment)
        else if !fate.wait then some (false, self, segment)
        else
          match segment.writer with
          | 0 => none
          | writer + 1 =>
              if !fate.write then
                some (false, self, { segment with writer := semPost fate.postWriter writer })
              else
                -- the result of `file_.flush()` is not looked at
                let store :=
                  if fate.flush then
                    segment.store.write (self.offset * bufferSize)
                      (buffer.read 0 (DataHeader.headerSize + size))
                  else segment.store
                let offset := (self.offset + 1) % totalAmount
                some (true, { self with offset },
                  { store, reader := semPost fate.postReader segment.reader, writer })
  else some (false, self, segment)

/-- `SharedFile::read`. -/
def read (self : RingHandler) (segment : Segment FileContents) (fate : ReadFate) :
    Except Fault ReadResult × RingHandler × Segment FileContents :=
  if self.isOpen then
    if !fate.tryWait then (.ok (.error .readError), self, segment)
    else
      match segment.reader with
      | 0 => (.ok (.error .noDataAvailable), self, segment)
      | reader + 1 =>
          if !fate.seekg then
            (.ok (.error .readError), self, { segment with reader := semPost fate.postReader reader })
          else if !fate.read then
            let buffer := self.buffer.write 0 (fate.received.take bufferSize)
            (.ok (.error .readError), { self with buffer },
              { segment with reader := semPost fate.postReader reader })
          else
            -- a short read at the end of the file leaves the rest of `buffer_` as it was
            let buffer := self.buffer.write 0
              (segment.store.read (self.offset * bufferSize) bufferSize)
            let offset := (self.offset + 1) % totalAmount
            (slotOutcome buffer, { self with offset, buffer },
              { segment with reader, writer := semPost fate.postWriter segment.writer })
  else (.ok (.error .connectionClosed), self, segment)

/-! ## The calls of a ring -/

/-- The message is one that has been put together by a writer, and it is in the slot. -/
def Holds (file : FileContents) (i : ℕ) (m : DataHeader × DataObject) : Prop :=
  IsMessage m ∧ InSlot file.bytes i m ∧ i * bufferSize + (imageOf m).length ≤ file.size

/-- A message written to a slot is held by it. -/
theorem holds_write (file : FileContents) (i : ℕ) {m : DataHeader × DataObject} (hm : IsMessage m) :
    Holds (file.write (i * bufferSize) (imageOf m)) i m :=
  ⟨hm, inSlot_write _ _ _, le_max_right _ _⟩

/-- The other slots hold what they did. -/
theorem Holds.write_of_ne {file : FileContents} {i w : ℕ} {m : DataHeader × DataObject}
    (h : Holds file i m) (hne : i ≠ w) {cells : List UInt8} (hcells : cells.length ≤ bufferSize) :
    Holds (file.write (w * bufferSize) cells) i m := by
  obtain ⟨hm, hslot, hsize⟩ := h
  refine ⟨hm, ?_, hsize.trans (le_max_left _ _)⟩
  have hkept := hslot.write_of_ne hm hne (k := 0) (by rwa [Nat.zero_add])
  rwa [Nat.add_zero] at hkept

/-- Reading a slot that holds a message loads it, even if the file ends in the slot. -/
theorem Holds.loaded {file : FileContents} {i : ℕ} {m : DataHeader × DataObject}
    (h : Holds file i m) (buffer : Memory UInt8) :
    Loaded (buffer.write 0 (file.read (i * bufferSize) bufferSize)) m := by
  obtain ⟨hm, hslot, hsize⟩ := h
  have hlen : (imageOf m).length ≤ min bufferSize (file.size - i * bufferSize) :=
    le_min hm.length_le (Nat.le_sub_of_add_le' hsize)
  exact hslot.loaded hlen buffer

/-- A write whose operations before the flush succeed, on an object that fits. -/
theorem write_of_pos {self : RingHandler} (hopen : self.isOpen = true) (store : FileContents)
    (reader writer : ℕ) {o : DataObject} (h : o.Fits) (timestamp : Int64) (fate : WriteFate)
    (hseekp : fate.seekp = true) (hwait : fate.wait = true) (hwrite : fate.write = true) :
    ∃ buffer, write self ⟨store, reader, writer + 1⟩ o timestamp fate =
      some (true, ⟨true, (self.offset + 1) % totalAmount, self.lastId + 1, buffer⟩,
        ⟨if fate.flush then
            store.write (self.offset * bufferSize) (imageOf (self.nextMessage o timestamp))
          else store, semPost fate.postReader reader, writer⟩) := by
  obtain ⟨buffer, hassemble, hread⟩ := assemble_of_le self.buffer self.lastId o timestamp h
  have hcells : buffer.read 0 (DataHeader.headerSize + o.bodySize) =
      imageOf (self.nextMessage o timestamp) := hread
  refine ⟨buffer, ?_⟩
  rw [write, if_pos hopen, hassemble]
  simp only [hseekp, hwait, hwrite, hcells, hopen, Bool.not_true, Bool.false_eq_true, if_false]

/-- The calls of a shared file are those of a ring, if no operation fails. -/
def calls : RingCalls FileContents where
  empty := .empty
  write self segment o timestamp := write self segment o timestamp .success
  read self segment := read self segment .success
  holds := Holds
  write_of_closed := by
    intro self hclosed segment o timestamp
    rw [write, hclosed, if_neg Bool.false_ne_true]
  read_of_closed := by
    intro self hclosed segment
    rw [read, hclosed, if_neg Bool.false_ne_true]
  write_of_not_fits := by
    intro self hopen segment o h timestamp
    rw [write, if_pos hopen, assemble_of_lt self.buffer self.lastId o timestamp h]
  write_of_zero := by
    intro self hopen store reader o h timestamp
    obtain ⟨buffer, hassemble, -⟩ := assemble_of_le self.buffer self.lastId o timestamp h
    rw [write, if_pos hopen, hassemble]
    rfl
  write_of_pos := by
    intro self hopen store reader writer o h timestamp
    obtain ⟨buffer, hwrite⟩ :=
      SharedFile.write_of_pos hopen store reader writer h timestamp .success rfl rfl rfl
    have hm := self.isMessage_nextMessage h timestamp
    refine ⟨buffer, _, hwrite, holds_write _ _ hm, ?_⟩
    intro i m hne hholds
    exact hholds.write_of_ne hne hm.length_le
  read_of_zero := by
    intro self hopen store writer
    rw [read, if_pos hopen]
    rfl
  read_of_pos := by
    intro self hopen store reader writer m hholds
    refine ⟨self.buffer.write 0 (store.read (self.offset * bufferSize) bufferSize), ?_⟩
    rw [read, if_pos hopen]
    simp only [ReadFate.success, Bool.not_true, Bool.false_eq_true, if_false, semPost, if_true, hopen,
      slotOutcome_of_loaded hholds.1 (hholds.loaded self.buffer)]

end SharedFile

end IpcPerformance
