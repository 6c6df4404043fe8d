import IpcPerformance.Handler.CommunicationHandler
import IpcPerformance.Library.Ring

/-! # Slots of the ring handlers

What `SharedMemory` and `SharedFile` have in common: `TOTAL_AMOUNT` slots of `BUFFER_SIZE` bytes each,
one message in a slot, and the decoding of a slot that has been copied to `buffer_`. -/

namespace IpcPerformance

/-- `TOTAL_AMOUNT`: slots in the ring. -/
def totalAmount : ℕ := 64

/-- `TOTAL_SIZE`: bytes of all slots. -/
def totalSize : ℕ := bufferSize * totalAmount

/-- The fields `SharedMemory` and `SharedFile` have in common, as far as their operations use them. -/
structure RingHandler where
  /-- Whether the memory or the file is open. -/
  isOpen : Bool
  /-- `offset_`: the slot the next call goes to. -/
  offset : ℕ
  /-- `last_id_`: id of the last message written. -/
  lastId : UInt32
  /-- The bytes of `buffer_`. -/
  buffer : Memory UInt8

/-- What the processes share: the slots and the counts of the two semaphores. -/
structure Segment (σ : Type) where
  /-- The contents of the slots. -/
  store : σ
  /-- Count of `reader_`: messages to read. -/
  reader : ℕ
  /-- Count of `writer_`: slots to write to. -/
  writer : ℕ

/-- The end of both readers, when a slot has been copied to `buffer_`. -/
def slotOutcome (buffer : Memory UInt8) : Except Fault ReadResult :=
  match DataHeader.deserialize buffer 0 DataHeader.headerSize with
  | none => .ok (.error .invalidHeader)
  | some header =>
      -- `assert(header.get_body_size() <= BUFFER_SIZE - header_size)`
      if header.bodySize.toNat ≤ bufferSize - DataHeader.headerSize then
        .ok (readResult header (deserializeDataObject header.type buffer DataHeader.headerSize
          header.bodySize.toNat))
      else .error .assertion

/-- The results of a read that have to do with a message: all but `NO_DATA_AVAILABLE` and
`READ_ERROR`. -/
def answer (result : Except Fault ReadResult) : List (Except Fault ReadResult) :=
  match result with
  | .ok (.error .noDataAvailable) => []
  | .ok (.error .readError) => []
  | _ => [result]

/-- The timestamps of the messages among the results. -/
def resultTimes (results : List (Except Fault ReadResult)) : List Int64 :=
  results.filterMap fun
    | .ok (.ok m) => some m.1.timestamp
    | _ => none

/-! ## Messages in slots -/

/-- A header and an object as the writers put them together. -/
def IsMessage (m : DataHeader × DataObject) : Prop :=
  m.2.Fits ∧ ∃ id timestamp, m.1 = outgoingHeader id m.2 m.2.bodySize timestamp

/-- The bytes of a message. -/
def imageOf (m : DataHeader × DataObject) : List UInt8 := messageImage m.1 m.2

@[simp] theorem length_imageOf (m : DataHeader × DataObject) :
    (imageOf m).length = DataHeader.headerSize + m.2.bodySize :=
  length_messageImage m.1 m.2

/-- A message fits into a slot. -/
theorem IsMessage.length_le {m : DataHeader × DataObject} (h : IsMessage m) :
    (imageOf m).length ≤ bufferSize := by
  rw [length_imageOf]
  exact h.1

/-- The message is at the start of a buffer. -/
def Loaded (buffer : Memory UInt8) (m : DataHeader × DataObject) : Prop :=
  buffer.read 0 (imageOf m).length = imageOf m

/-- The message is in slot `i`. -/
def InSlot (memory : Memory UInt8) (i : ℕ) (m : DataHeader × DataObject) : Prop :=
  memory.read (i * bufferSize) (imageOf m).length = imageOf m

/-- A message that has been copied to the buffer is decoded. -/
theorem slotOutcome_of_loaded {buffer : Memory UInt8} {m : DataHeader × DataObject}
    (hm : IsMessage m) (h : Loaded buffer m) : slotOutcome buffer = .ok (.ok m) := by
  obtain ⟨header, o⟩ := m
  obtain ⟨hfits, id, timestamp, hheader⟩ := hm
  simp only at hfits hheader
  subst hheader
  have hsize := toNat_bodySize_outgoingHeader id o timestamp hfits
  have hle : o.bodySize ≤ bufferSize - DataHeader.headerSize := by
    have hfits' : DataHeader.headerSize + o.bodySize ≤ bufferSize := hfits
    omega
  simp only [Loaded, imageOf, length_messageImage] at h
  -- the header and the body are where the reader looks for them
  have hheader : buffer.read 0 DataHeader.headerSize =
      (outgoingHeader id o o.bodySize timestamp).image := by
    rw [← Memory.take_read buffer 0 (Nat.le_add_right _ o.bodySize), h, messageImage,
      List.take_left' (DataHeader.length_image _)]
  have hbody : buffer.read DataHeader.headerSize o.bodySize = o.image := by
    have hdrop := Memory.drop_read buffer 0 (Nat.le_add_right DataHeader.headerSize o.bodySize)
    rw [h, messageImage, List.drop_left' (DataHeader.length_image _), Nat.zero_add,
      Nat.add_sub_cancel_left] at hdrop
    exact hdrop.symm
  have hresult := readResult_image id o timestamp [] hfits
  rw [List.append_nil] at hresult
  simp only [slotOutcome, DataHeader.deserialize_headerSize, hheader, DataHeader.ofImage_image, hsize,
    if_pos hle, deserializeDataObject_eq, hbody]
  rw [hresult]

/-- **What assembling does**: an object that fits becomes a message in the buffer, any other one
changes nothing. -/
theorem assemble_cases (buffer : Memory UInt8) (lastId : UInt32) (o : DataObject)
    (timestamp : Int64) :
    (o.Fits ∧ ∃ buffer', assemble buffer lastId o timestamp =
        (buffer', some (lastId + 1, o.bodySize)) ∧
      Loaded buffer' (outgoingHeader (lastId + 1) o o.bodySize timestamp, o)) ∨
    (¬ o.Fits ∧ assemble buffer lastId o timestamp = (buffer, none)) := by
  by_cases hfits : o.Fits
  · left
    obtain ⟨buffer', hassemble, hread⟩ := assemble_of_le buffer lastId o timestamp hfits
    refine ⟨hfits, buffer', hassemble, ?_⟩
    rw [Loaded, length_imageOf]
    exact hread
  · right
    exact ⟨hfits, assemble_of_lt buffer lastId o timestamp hfits⟩

/-- A change within one slot leaves the messages in the others alone. -/
theorem InSlot.write_of_ne {memory : Memory UInt8} {i w k : ℕ} {m : DataHeader × DataObject}
    {cells : List UInt8} (h : InSlot memory i m) (hm : IsMessage m) (hne : i ≠ w)
    (hcells : k + cells.length ≤ bufferSize) :
    InSlot (memory.write (w * bufferSize + k) cells) i m := by
  have hlen := hm.length_le
  rw [InSlot, Memory.read_write_of_disjoint, h]
  simp only [bufferSize, DataHeader.headerSize] at hlen hcells ⊢
  omega

/-- A message copied to a slot is in it. -/
theorem inSlot_write (memory : Memory UInt8) (i : ℕ) (m : DataHeader × DataObject) :
    InSlot (memory.write (i * bufferSize) (imageOf m)) i m :=
  Memory.read_write memory _ _

/-- A slot copied to a buffer, or enough of it, loads the message that is in it. -/
theorem InSlot.loaded {memory : Memory UInt8} {i n : ℕ} {m : DataHeader × DataObject}
    (h : InSlot memory i m) (hn : (imageOf m).length ≤ n) (buffer : Memory UInt8) :
    Loaded (buffer.write 0 (memory.read (i * bufferSize) n)) m := by
  rw [Loaded, Memory.read_write_take _ _ _ _ (by rwa [Memory.length_read]),
    Memory.take_read _ _ hn]
  exact h

/-! ## What a call does -/

/-- The message a write of the handler will send. -/
def RingHandler.nextMessage (self : RingHandler) (o : DataObject) (timestamp : Int64) :
    DataHeader × DataObject :=
  (outgoingHeader (self.lastId + 1) o o.bodySize timestamp, o)

theorem RingHandler.isMessage_nextMessage (self : RingHandler) {o : DataObject} (h : o.Fits)
    (timestamp : Int64) : IsMessage (self.nextMessage o timestamp) :=
  ⟨h, _, _, rfl⟩

/-- The calls of one of the two ring classes when nothing fails, and what they do: a write sends an
object that fits to the slot at the cursor, a read returns the message in the slot at the cursor. -/
structure RingCalls (σ : Type) where
  /-- The slots of a new segment. -/
  empty : σ
  /-- `write`; no value when it blocks. -/
  write : RingHandler → Segment σ → DataObject → Int64 → Option (Bool × RingHandler × Segment σ)
  /-- `read`. -/
  read : RingHandler → Segment σ → Except Fault ReadResult × RingHandler × Segment σ
  /-- The message is in a slot. -/
  holds : σ → ℕ → DataHeader × DataObject → Prop
  /-- A closed handler does not write. -/
  write_of_closed {self : RingHandler} (hclosed : self.isOpen = false) (segment : Segment σ)
    (o : DataObject) (timestamp : Int64) :
    write self segment o timestamp = some (false, self, segment)
  /-- A closed handler does not read. -/
  read_of_closed {self : RingHandler} (hclosed : self.isOpen = false) (segment : Segment σ) :
    read self segment = (.ok (.error .connectionClosed), self, segment)
  /-- An object that does not fit is rejected without a trace. -/
  write_of_not_fits {self : RingHandler} (hopen : self.isOpen = true) (segment : Segment σ)
    {o : DataObject} (h : ¬ o.Fits) (timestamp : Int64) :
    write self segment o timestamp = some (false, self, segment)
  /-- A write blocks when there is no slot left. -/
  write_of_zero {self : RingHandler} (hopen : self.isOpen = true) (store : σ) (reader : ℕ)
    {o : DataObject} (h : o.Fits) (timestamp : Int64) : write self ⟨store, reader, 0⟩ o timestamp = none
  /-- Otherwise it fills its slot and leaves the other ones alone. -/
  write_of_pos {self : RingHandler} (hopen : self.isOpen = true) (store : σ) (reader writer : ℕ)
    {o : DataObject} (h : o.Fits) (timestamp : Int64) :
    ∃ buffer store',
      write self ⟨store, reader, writer + 1⟩ o timestamp =
        some (true, ⟨true, (self.offset + 1) % totalAmount, self.lastId + 1, buffer⟩,
          ⟨store', reader + 1, writer⟩) ∧
      holds store' self.offset (self.nextMessage o timestamp) ∧
      ∀ i m, i ≠ self.offset → holds store i m → holds store' i m
  /-- Without a message a read finds no data. -/
  read_of_zero {self : RingHandler} (hopen : self.isOpen = true) (store : σ) (writer : ℕ) :
    read self ⟨store, 0, writer⟩ = (.ok (.error .noDataAvailable), self, ⟨store, 0, writer⟩)
  /-- A read returns the message that is in its slot, and gives the slot back. -/
  read_of_pos {self : RingHandler} (hopen : self.isOpen = true) {store : σ} (reader writer : ℕ)
    {m : DataHeader × DataObject} (h : holds store self.offset m) :
    ∃ buffer, read self ⟨store, reader + 1, writer⟩ =
      (.ok (.ok m), ⟨true, (self.offset + 1) % totalAmount, self.lastId, buffer⟩,
        ⟨store, reader, writer + 1⟩)

namespace RingCalls

variable {σ : Type}

/-- The results of the next `n` calls of `read`. -/
def readOn (calls : RingCalls σ) : ℕ → RingHandler → Segment σ → List (Except Fault ReadResult)
  | 0, _, _ => []
  | n + 1, self, segment =>
      let (result, self', segment') := calls.read self segment
      result :: calls.readOn n self' segment'

/-- **Everything written is returned**, once each and in order: with the results of the reads so far,
further reads return the messages written. -/
def AllReturned (calls : RingCalls σ) (reader : RingHandler) (segment : Segment σ)
    (results : List (Except Fault ReadResult)) (written : List (DataHeader × DataObject)) : Prop :=
  results ++ calls.readOn (written.length - results.length) reader segment =
    written.map fun m => .ok (.ok m)

/-- Reading on returns what is in the ring. -/
theorem readOn_of_ringState (calls : RingCalls σ) (reader : RingHandler) (segment : Segment σ)
    {writerOffset : ℕ} {items : List (DataHeader × DataObject)} (hopen : reader.isOpen = true)
    (h : RingState totalAmount (calls.holds segment.store) reader.offset writerOffset segment.reader
      segment.writer items) :
    calls.readOn items.length reader segment = items.map fun m => .ok (.ok m) := by
  induction items generalizing reader segment with
  | nil => rfl
  | cons m items ih =>
      -- the count of the semaphore lets one more read through
      obtain ⟨store, count, writer⟩ := segment
      obtain rfl : count = items.length + 1 := h.reader_eq
      obtain ⟨m', items', hitems, hholds⟩ := h.exists_cons
      cases hitems
      obtain ⟨buffer, hread⟩ := calls.read_of_pos hopen items.length writer hholds
      rw [List.length_cons, readOn, hread, List.map_cons]
      refine congrArg (List.cons _) (ih _ _ rfl ?_)
      exact h.pop le_rfl

/-- What has been returned and what is in the ring make up what has been written. -/
theorem allReturned_of_ringState (calls : RingCalls σ) {reader : RingHandler} {segment : Segment σ}
    {writerOffset : ℕ} {results : List (Except Fault ReadResult)}
    {written items : List (DataHeader × DataObject)} (hopen : reader.isOpen = true)
    (h : RingState totalAmount (calls.holds segment.store) reader.offset writerOffset segment.reader
      segment.writer items)
    (hwritten : results ++ items.map (fun m => .ok (.ok m)) = written.map fun m => .ok (.ok m)) :
    calls.AllReturned reader segment results written := by
  have hlength := congrArg List.length hwritten
  rw [List.length_append, List.length_map, List.length_map] at hlength
  have hcount : written.length - results.length = items.length := by omega
  rw [AllReturned, hcount, calls.readOn_of_ringState reader segment hopen h]
  exact hwritten

end RingCalls

end IpcPerformance
