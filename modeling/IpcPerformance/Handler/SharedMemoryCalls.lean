import IpcPerformance.Handler.SharedMemory

/-! # Calls on shared memory

A call that nobody interferes with does what its steps do one after the other, and what that is.

* `RingSystem.runAll_write`, `RingSystem.runAll_read` — `SharedMemory.write` and `SharedMemory.read`
  are runs of the steps of `RingSystem`.
* `SharedMemory.calls` — the calls as those of a ring. -/

namespace IpcPerformance

/-! ## Calls are runs of steps -/

namespace RingSystem

/-- The rest of the `memcpy` of a write. -/
theorem runAll_copyIn (s : RingSystem) (header : DataHeader) (o : DataObject) (size copied rest : ℕ)
    (hphase : s.writePhase = .copying header o size copied)
    (hrest : copied + rest = DataHeader.headerSize + size) :
    runAll step s (List.replicate (rest + 1) .writer) = some { s with
      segment := { s.segment with
        store := s.segment.store.write (s.client.offset * bufferSize + copied)
          (s.client.buffer.read copied rest) }
      writePhase := .copied header o } := by
  induction rest generalizing s copied with
  | zero =>
      have hlt : ¬ copied < DataHeader.headerSize + size := by omega
      rw [List.replicate_one, runAll, step, stepWriter, hphase]
      simp only [if_neg hlt, Option.bind_some, runAll, Memory.read_zero, Memory.write_nil]
  | succ rest ih =>
      have hlt : copied < DataHeader.headerSize + size := by omega
      rw [List.replicate_succ, runAll, step, stepWriter, hphase]
      simp only [if_pos hlt, Option.bind_some]
      rw [ih _ (copied + 1) rfl (by omega)]
      -- one byte, and then the others behind it
      rw [Memory.read_succ_eq_append, Memory.write_append, List.length_singleton, Nat.add_assoc]

/-- A write in its wait goes on to its end when there is a slot. -/
theorem runAll_writer {s : RingSystem} {header : DataHeader} {o : DataObject} {size writer : ℕ}
    (hphase : s.writePhase = .waiting header o size) (hwriter : s.segment.writer = writer + 1) :
    runAll step s (List.replicate (1 + (DataHeader.headerSize + size + 1) + 2) .writer) =
      some { s with
        segment := ⟨s.segment.store.write (s.client.offset * bufferSize)
          (s.client.buffer.read 0 (DataHeader.headerSize + size)), s.segment.reader + 1, writer⟩
        client := { s.client with offset := (s.client.offset + 1) % totalAmount }
        writePhase := .idle
        log := s.log ++ [⟨s.client.offset, header, o⟩] } := by
  -- the wait, the copy, and then the cursor and the post
  have hwait : runAll step s (List.replicate 1 .writer) = some { s with
      segment := { s.segment with writer }, writePhase := .copying header o size 0 } := by
    rw [List.replicate_one, runAll, step, stepWriter, hphase]
    simp only [hwriter, Option.bind_some, runAll]
  rw [List.replicate_add, List.replicate_add, runAll_append, runAll_append, hwait, Option.bind_some,
    runAll_copyIn _ header o size 0 (DataHeader.headerSize + size) rfl (Nat.zero_add _)]
  simp only [Option.bind_some, List.replicate_succ, List.replicate_zero, runAll, step, stepWriter,
    Nat.add_zero]

/-- **A call of `write` is a run of its steps**: if the call returns, so does the run that starts it
and goes on with it, in the same state. -/
theorem runAll_write {s : RingSystem} (hphase : s.writePhase = .idle)
    (hopen : s.client.isOpen = true) (o : DataObject) (timestamp : Int64) {result : Bool}
    {client : RingHandler} {segment : Segment (Memory UInt8)}
    (hwrite : SharedMemory.write s.client s.segment o timestamp = some (result, client, segment)) :
    ∃ n t, runAll step s (.write o timestamp :: List.replicate n .writer) = some t ∧
      t.client = client ∧ t.segment = segment ∧ t.writePhase = .idle := by
  rw [SharedMemory.write, if_pos hopen] at hwrite
  rcases assemble_cases s.client.buffer s.client.lastId o timestamp with
    ⟨-, buffer, hassemble, -⟩ | ⟨-, hassemble⟩
  · cases hwriter : s.segment.writer with
    | zero =>
        simp only [hassemble, hwriter] at hwrite
        cases hwrite
    | succ writer =>
        simp only [hassemble, hwriter] at hwrite
        cases hwrite
        have hstart : step s (.write o timestamp) = some (s.startWrite o timestamp) := by
          rw [step, hphase]
        rw [startWrite, hassemble] at hstart
        exact ⟨_, _, runAll_cons_eq_some.mpr ⟨_, hstart, runAll_writer rfl hwriter⟩, rfl, rfl, rfl⟩
  · simp only [hassemble] at hwrite
    cases hwrite
    refine ⟨0, s, ?_, rfl, rfl, hphase⟩
    rw [List.replicate_zero, runAll, step, hphase]
    simp only [Option.bind_some, startWrite, hassemble, runAll]

/-- The rest of the `memcpy` of a read. -/
theorem runAll_copyOut (s : RingSystem) (copied rest : ℕ) (hphase : s.readPhase = .copying copied)
    (hrest : copied + rest = bufferSize) :
    runAll step s (List.replicate (rest + 1) .reader) = some { s with
      server := { s.server with
        buffer := s.server.buffer.write copied
          (s.segment.store.read (s.server.offset * bufferSize + copied) rest) }
      readPhase := .copied } := by
  induction rest generalizing s copied with
  | zero =>
      have hlt : ¬ copied < bufferSize := by omega
      rw [List.replicate_one, runAll, step, stepReader, hphase]
      simp only [if_neg hlt, Option.bind_some, runAll, Memory.read_zero, Memory.write_nil]
  | succ rest ih =>
      have hlt : copied < bufferSize := by omega
      rw [List.replicate_succ, runAll, step, stepReader, hphase]
      simp only [if_pos hlt, Option.bind_some]
      rw [ih _ (copied + 1) rfl (by omega)]
      -- one byte, and then the others behind it
      rw [Memory.read_succ_eq_append, Memory.write_append, List.length_singleton, Nat.add_assoc]

/-- A read that has taken its token goes on to its end. -/
theorem runAll_reader {s : RingSystem} (hphase : s.readPhase = .copying 0) :
    runAll step s (List.replicate (bufferSize + 1 + 3) .reader) =
      some { s with
        segment := { s.segment with writer := s.segment.writer + 1 }
        server := { s.server with
          offset := (s.server.offset + 1) % totalAmount
          buffer := s.server.buffer.write 0
            (s.segment.store.read (s.server.offset * bufferSize) bufferSize) }
        readPhase := .idle
        results := s.results ++ [slotOutcome (s.server.buffer.write 0
          (s.segment.store.read (s.server.offset * bufferSize) bufferSize))]
        taken := s.taken + 1 } := by
  -- the copy, and then the cursor, the post and the decoding
  rw [List.replicate_add, runAll_append, runAll_copyOut s 0 bufferSize hphase (Nat.zero_add _)]
  simp only [Option.bind_some, List.replicate_succ, List.replicate_zero, runAll, step, stepReader,
    Nat.add_zero]

/-- **A call of `read` is a run of its steps.** -/
theorem runAll_read {s : RingSystem} (hphase : s.readPhase = .idle)
    (hopen : s.server.isOpen = true) {result : Except Fault ReadResult} {server : RingHandler}
    {segment : Segment (Memory UInt8)}
    (hread : SharedMemory.read s.server s.segment = (result, server, segment)) :
    ∃ n t, runAll step s (.read :: List.replicate n .reader) = some t ∧
      t.server = server ∧ t.segment = segment ∧ t.readPhase = .idle ∧
      t.results = s.results ++ [result] := by
  have hstart : step s .read = some s.startRead := by
    rw [step, hphase]
  rw [SharedMemory.read, if_pos hopen] at hread
  rw [startRead] at hstart
  cases hreader : s.segment.reader with
  | zero =>
      simp only [hreader] at hread hstart
      cases hread
      exact ⟨0, _, runAll_cons_eq_some.mpr ⟨_, hstart, rfl⟩, rfl, rfl, hphase, rfl⟩
  | succ reader =>
      simp only [hreader] at hread hstart
      rw [Prod.mk.injEq, Prod.mk.injEq] at hread
      obtain ⟨rfl, rfl, rfl⟩ := hread
      exact ⟨_, _, runAll_cons_eq_some.mpr ⟨_, hstart, runAll_reader rfl⟩, rfl, rfl, rfl, rfl⟩

end RingSystem

/-! ## The calls of a ring -/

/-- The message is one that has been put together by a writer, and it is in the slot. -/
def SharedMemory.Holds (memory : Memory UInt8) (i : ℕ) (m : DataHeader × DataObject) : Prop :=
  IsMessage m ∧ InSlot memory i m

/-- The calls of shared memory are those of a ring. -/
def SharedMemory.calls : RingCalls (Memory UInt8) where
  empty := fun _ => 0
  write := SharedMemory.write
  read := SharedMemory.read
  holds := SharedMemory.Holds
  write_of_closed := by
    intro self hclosed segment o timestamp
    rw [SharedMemory.write, hclosed, if_neg Bool.false_ne_true]
  read_of_closed := by
    intro self hclosed segment
    rw [SharedMemory.read, hclosed, if_neg Bool.false_ne_true]
  write_of_not_fits := by
    intro self hopen segment o h timestamp
    rw [SharedMemory.write, if_pos hopen, assemble_of_lt self.buffer self.lastId o timestamp h]
  write_of_zero := by
    intro self hopen store reader o h timestamp
    obtain ⟨buffer, hassemble, -⟩ := assemble_of_le self.buffer self.lastId o timestamp h
    rw [SharedMemory.write, if_pos hopen, hassemble]
  write_of_pos := by
    intro self hopen store reader writer o h timestamp
    obtain ⟨buffer, hassemble, hread⟩ := assemble_of_le self.buffer self.lastId o timestamp h
    have hcells : buffer.read 0 (DataHeader.headerSize + o.bodySize) =
        imageOf (self.nextMessage o timestamp) := hread
    have hm := self.isMessage_nextMessage h timestamp
    refine ⟨buffer, store.write (self.offset * bufferSize) (imageOf (self.nextMessage o timestamp)),
      ?_, ⟨hm, inSlot_write _ _ _⟩, ?_⟩
    · rw [SharedMemory.write, if_pos hopen, hassemble]
      simp only [hcells, hopen]
    · rintro i m hne ⟨hmessage, hslot⟩
      refine ⟨hmessage, ?_⟩
      have hcells' : 0 + (imageOf (self.nextMessage o timestamp)).length ≤ bufferSize := by
        rw [Nat.zero_add]
        exact hm.length_le
      have hkept := hslot.write_of_ne hmessage hne hcells'
      rwa [Nat.add_zero] at hkept
  read_of_zero := by
    intro self hopen store writer
    rw [SharedMemory.read, if_pos hopen]
  read_of_pos := by
    rintro self hopen store reader writer m ⟨hm, hslot⟩
    refine ⟨self.buffer.write 0 (store.read (self.offset * bufferSize) bufferSize), ?_⟩
    rw [SharedMemory.read, if_pos hopen]
    simp only [slotOutcome_of_loaded hm (hslot.loaded hm.length_le self.buffer), hopen]

end IpcPerformance
