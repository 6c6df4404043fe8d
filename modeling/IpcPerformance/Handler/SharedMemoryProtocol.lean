import IpcPerformance.Handler.SharedMemory

/-! # The protocol of the shared memory ring

Writer and reader of a segment share two semaphores and nothing else, while their cursors are private.
The invariant `RingSystem.Inv` ties the cursors to each other through the messages that are in the
ring: the counts of both semaphores, together with the tokens a party holds in the middle of a call,
belong to these messages, and the slots from the reader's cursor on hold them. Each party's steps
preserve it (`Inv.stepWriter`, `Inv.stepReader`), so it holds in every state that can be reached, in
whatever order the steps are taken, and `RingSystem.safe_of_run` follows. -/

namespace IpcPerformance

/-! ## Tokens and cursors within a call -/

/-- Tokens of `writer_` the writer holds. -/
def WritePhase.held : WritePhase → ℕ
  | idle | waiting _ _ _ => 0
  | copying _ _ _ _ | copied _ _ | advanced _ _ _ => 1

/-- Slots the writer's cursor is ahead of the log. -/
def WritePhase.moved : WritePhase → ℕ
  | advanced _ _ _ => 1
  | _ => 0

/-- Tokens of `reader_` the reader holds for the message it is copying. -/
def ReadPhase.taking : ReadPhase → ℕ
  | copying _ | copied => 1
  | _ => 0

/-- Tokens of `reader_` the reader holds while it awaits data. -/
def ReadPhase.awaits : ReadPhase → ℕ
  | awaiting => 1
  | _ => 0

/-- Tokens of `writer_` the reader is going to give back. -/
def ReadPhase.returning : ReadPhase → ℕ
  | advanced => 1
  | _ => 0

/-- Messages the reader has copied but not decoded. -/
def ReadPhase.decoding : ReadPhase → ℕ
  | advanced | posted => 1
  | _ => 0

namespace RingSystem

/-- The messages whose write has returned true and that have not been copied out of their slot. -/
def unread (s : RingSystem) : List LogEntry := s.log.drop s.taken

/-- The messages returned by `read`, in order. -/
def returned (s : RingSystem) : List (DataHeader × DataObject) :=
  s.results.filterMap fun
    | .ok (.ok m) => some m
    | _ => none

/-- The message of a log entry is in its slot. -/
def HoldsEntry (memory : Memory UInt8) (i : ℕ) (e : LogEntry) : Prop :=
  e.slot = i ∧ IsMessage e.message ∧ InSlot memory i e.message

/-- The buffer of the writer holds the message it is sending. -/
def Sending (s : RingSystem) (header : DataHeader) (o : DataObject) : Prop :=
  IsMessage (header, o) ∧ Loaded s.client.buffer (header, o)

/-- What the writer has done so far. -/
def Writing (s : RingSystem) : Prop :=
  match s.writePhase with
  | .idle => True
  | .waiting header o size => s.Sending header o ∧ size = o.bodySize
  | .copying header o size copied =>
      s.Sending header o ∧ size = o.bodySize ∧ copied ≤ (imageOf (header, o)).length ∧
        s.segment.store.read (s.client.offset * bufferSize) copied =
          (imageOf (header, o)).take copied
  | .copied header o =>
      IsMessage (header, o) ∧ InSlot s.segment.store s.client.offset (header, o)
  | .advanced header o slot =>
      slot = (s.server.offset + s.unread.length) % totalAmount ∧
        IsMessage (header, o) ∧ InSlot s.segment.store slot (header, o)

/-- What the reader has done so far. -/
def Reading (s : RingSystem) : Prop :=
  match s.readPhase with
  | .idle | .awaiting => True
  | .copying copied =>
      copied ≤ bufferSize ∧ ∃ e, s.unread.head? = some e ∧
        s.server.buffer.read 0 (min copied (imageOf e.message).length) =
          (imageOf e.message).take copied
  | .copied => ∃ e, s.unread.head? = some e ∧ Loaded s.server.buffer e.message
  | .advanced | .posted =>
      0 < s.taken ∧ ∃ e, s.log[s.taken - 1]? = some e ∧ Loaded s.server.buffer e.message

/-- **The invariant of the ring.** -/
structure Inv (s : RingSystem) : Prop where
  /-- Every token of `writer_` is there, held, or belongs to a slot in use. -/
  writer_tokens : s.segment.writer + s.writePhase.held + s.unread.length + s.readPhase.returning =
    totalAmount
  /-- Every message to read has a token of `reader_`, there or held. -/
  reader_tokens : s.segment.reader + s.readPhase.awaits + s.readPhase.taking = s.unread.length
  /-- The reader's cursor is a slot. -/
  server_offset : s.server.offset < totalAmount
  /-- The writer's cursor is behind the messages to read. -/
  client_offset :
    s.client.offset = (s.server.offset + s.unread.length + s.writePhase.moved) % totalAmount
  /-- Only messages of the log are read. -/
  taken_le : s.taken ≤ s.log.length
  /-- The log consists of messages. -/
  messages : ∀ e ∈ s.log, IsMessage e.message
  /-- The slots from the reader's cursor on hold the messages to read. -/
  slots : RingHolds totalAmount (HoldsEntry s.segment.store) s.server.offset s.unread
  /-- The call of the writer. -/
  writing : s.Writing
  /-- The call of the reader. -/
  reading : s.Reading
  /-- The messages returned are the first ones of the log. -/
  returned_eq : s.returned = (s.log.take (s.taken - s.readPhase.decoding)).map LogEntry.message
  /-- No read ends in another way. -/
  results_ok : ∀ r ∈ s.results, (∃ m, r = .ok (.ok m)) ∨ r = .ok (.error .noDataAvailable) ∨
    r = .ok (.error .readError)
  /-- After `await_data` has returned true there is a message to read. -/
  awaited_unread : s.awaited = true → s.readPhase.taking = 0 ∧ 0 < s.unread.length

/-! ## Steps of the writer -/

variable {s t : RingSystem}

/-- While the writer holds a token the ring is not full. -/
theorem Inv.unread_lt (h : s.Inv) (hheld : s.writePhase.held = 1) :
    s.unread.length < totalAmount := by
  have := h.writer_tokens
  omega

/-- A change of the slot the writer copies to keeps the messages to read. -/
theorem Inv.slots_write (h : s.Inv) (hheld : s.writePhase.held = 1) (hmoved : s.writePhase.moved = 0)
    {k : ℕ} {cells : List UInt8} (hcells : k + cells.length ≤ bufferSize) :
    RingHolds totalAmount
      (HoldsEntry (s.segment.store.write (s.client.offset * bufferSize + k) cells))
      s.server.offset s.unread := by
  refine h.slots.of_ne (h.unread_lt hheld) ?_
  rintro i e hne ⟨hslot, hmessage, hin⟩
  have hoffset := h.client_offset
  rw [hmoved, Nat.add_zero] at hoffset
  rw [← hoffset] at hne
  exact ⟨hslot, hmessage, hin.write_of_ne hmessage hne hcells⟩

/-- Calling `write` preserves the invariant. -/
theorem Inv.startWrite (h : s.Inv) (hphase : s.writePhase = .idle) (o : DataObject)
    (timestamp : Int64) : (s.startWrite o timestamp).Inv := by
  rcases assemble_cases s.client.buffer s.client.lastId o timestamp with
    ⟨hfits, buffer, hassemble, hloaded⟩ | ⟨-, hassemble⟩
  · have hstart : s.startWrite o timestamp = { s with
        client := { s.client with buffer, lastId := s.client.lastId + 1 }
        writePhase := .waiting
          (outgoingHeader (s.client.lastId + 1) o o.bodySize timestamp) o o.bodySize } := by
      rw [RingSystem.startWrite, hassemble]
    rw [hstart]
    have htokens := h.writer_tokens
    have hoffset := h.client_offset
    rw [hphase] at htokens hoffset
    exact { h with
      writer_tokens := htokens
      client_offset := hoffset
      writing := ⟨⟨⟨hfits, _, _, rfl⟩, hloaded⟩, rfl⟩ }
  · have hstart : s.startWrite o timestamp = s := by
      rw [RingSystem.startWrite, hassemble]
    rw [hstart]
    exact h

/-- Messages that join the log do not change what the reader has done. -/
theorem Reading.append_log (h : s.Reading) (hle : s.taken ≤ s.log.length) (e : LogEntry) :
    Reading { s with
      segment := { s.segment with reader := s.segment.reader + 1 }
      writePhase := .idle
      log := s.log ++ [e] } := by
  have hunread : (s.log ++ [e]).drop s.taken = s.unread ++ [e] :=
    List.drop_append_of_le_length hle
  have hhead : ∀ e', s.unread.head? = some e' → ((s.log ++ [e]).drop s.taken).head? = some e' := by
    intro e' h'
    rw [hunread, List.head?_append, h', Option.some_or]
  -- the reader refers to the first message to read, or to the last one it has taken
  have hlast : ∀ e', 0 < s.taken → s.log[s.taken - 1]? = some e' →
      (s.log ++ [e])[s.taken - 1]? = some e' := by
    intro e' hpos h'
    rw [List.getElem?_append_left (by omega), h']
  rw [Reading] at h ⊢
  cases hphase : s.readPhase with
  | idle => trivial
  | awaiting => trivial
  | copying copied =>
      simp only [hphase] at h ⊢
      obtain ⟨hle', e', he', hcopied⟩ := h
      exact ⟨hle', e', hhead e' he', hcopied⟩
  | copied =>
      simp only [hphase] at h ⊢
      obtain ⟨e', he', hloaded⟩ := h
      exact ⟨e', hhead e' he', hloaded⟩
  | advanced =>
      simp only [hphase] at h ⊢
      obtain ⟨hpos, e', he', hloaded⟩ := h
      exact ⟨hpos, e', hlast e' hpos he', hloaded⟩
  | posted =>
      simp only [hphase] at h ⊢
      obtain ⟨hpos, e', he', hloaded⟩ := h
      exact ⟨hpos, e', hlast e' hpos he', hloaded⟩

/-- Copying one more byte of a message to its slot. -/
theorem Inv.copyIn (h : s.Inv) {header : DataHeader} {o : DataObject} {size copied : ℕ}
    (hphase : s.writePhase = .copying header o size copied)
    (hlt : copied < DataHeader.headerSize + size) :
    Inv { s with
      segment := { s.segment with
        store := s.segment.store.write (s.client.offset * bufferSize + copied)
          [s.client.buffer copied] }
      writePhase := .copying header o size (copied + 1) } := by
  have htokens := h.writer_tokens
  have hoffset := h.client_offset
  have hwriting := h.writing
  have hheld : s.writePhase.held = 1 := by
    rw [hphase]
    rfl
  have hmoved : s.writePhase.moved = 0 := by
    rw [hphase]
    rfl
  rw [hphase] at htokens hoffset
  rw [Writing, hphase] at hwriting
  obtain ⟨⟨hmessage, hloaded⟩, rfl, hle, hcopied⟩ := hwriting
  have hlen : copied < (imageOf (header, o)).length := by
    rw [length_imageOf]
    exact hlt
  have hbyte : s.client.buffer copied = (imageOf (header, o))[copied] := by
    have := Memory.apply_of_read_eq hloaded hlen
    rwa [Nat.zero_add] at this
  refine { h with
    writer_tokens := htokens
    client_offset := hoffset
    slots := h.slots_write hheld hmoved (hlen.trans_le hmessage.length_le)
    writing := ⟨⟨hmessage, hloaded⟩, rfl, hlen, ?_⟩ }
  -- the bytes copied before are kept, and the new one follows them
  change (s.segment.store.write _ _).read _ _ = _
  rw [Memory.read_succ, Memory.read_write_of_disjoint _ _ (Or.inl le_rfl), hcopied,
    List.take_succ_eq_append_getElem hlen, hbyte, Memory.write_apply_self]

/-- Taking a token of `writer_`. -/
theorem Inv.takeSlot (h : s.Inv) {header : DataHeader} {o : DataObject} {size writer : ℕ}
    (hphase : s.writePhase = .waiting header o size) (hcount : s.segment.writer = writer + 1) :
    Inv { s with
      segment := { s.segment with writer }
      writePhase := .copying header o size 0 } := by
  have htokens := h.writer_tokens
  have hoffset := h.client_offset
  have hwriting := h.writing
  rw [hphase] at htokens hoffset
  rw [Writing, hphase] at hwriting
  simp only [hcount, WritePhase.held] at htokens
  exact { h with
    writer_tokens := by
      change writer + 1 + s.unread.length + s.readPhase.returning = totalAmount
      omega
    client_offset := hoffset
    writing := ⟨hwriting.1, hwriting.2, Nat.zero_le _, rfl⟩ }

/-- When all bytes are copied, the message is in the slot. -/
theorem Inv.endCopyIn (h : s.Inv) {header : DataHeader} {o : DataObject} {size copied : ℕ}
    (hphase : s.writePhase = .copying header o size copied)
    (hge : ¬ copied < DataHeader.headerSize + size) :
    Inv { s with writePhase := .copied header o } := by
  have htokens := h.writer_tokens
  have hoffset := h.client_offset
  have hwriting := h.writing
  rw [hphase] at htokens hoffset
  rw [Writing, hphase] at hwriting
  obtain ⟨⟨hmessage, -⟩, rfl, hle, hcopied⟩ := hwriting
  have hall : copied = (imageOf (header, o)).length := by
    rw [length_imageOf] at hle ⊢
    exact le_antisymm hle (Nat.le_of_not_lt hge)
  subst hall
  rw [List.take_length] at hcopied
  exact { h with
    writer_tokens := htokens
    client_offset := hoffset
    writing := ⟨hmessage, hcopied⟩ }

/-- Advancing the writer's cursor. -/
theorem Inv.advanceWriter (h : s.Inv) {header : DataHeader} {o : DataObject}
    (hphase : s.writePhase = .copied header o) :
    Inv { s with
      client := { s.client with offset := (s.client.offset + 1) % totalAmount }
      writePhase := .advanced header o s.client.offset } := by
  have htokens := h.writer_tokens
  have hoffset := h.client_offset
  have hwriting := h.writing
  rw [hphase] at htokens hoffset
  rw [Writing, hphase] at hwriting
  simp only [WritePhase.moved, Nat.add_zero] at hoffset
  exact { h with
    writer_tokens := htokens
    client_offset := by
      change (s.client.offset + 1) % totalAmount = _
      rw [hoffset, Nat.mod_add_mod]
      rfl
    writing := ⟨hoffset, hwriting⟩ }

/-- Posting `reader_`: the message joins those to read. -/
theorem Inv.postReader (h : s.Inv) {header : DataHeader} {o : DataObject} {slot : ℕ}
    (hphase : s.writePhase = .advanced header o slot) :
    Inv { s with
      segment := { s.segment with reader := s.segment.reader + 1 }
      writePhase := .idle
      log := s.log ++ [⟨slot, header, o⟩] } := by
  have htokens := h.writer_tokens
  have hoffset := h.client_offset
  have hwriting := h.writing
  have hreader := h.reader_tokens
  rw [hphase] at htokens hoffset
  rw [Writing, hphase] at hwriting
  simp only [WritePhase.held, WritePhase.moved] at htokens hoffset
  obtain ⟨hslot, hmessage, hin⟩ := hwriting
  have hunread : (s.log ++ [LogEntry.mk slot (header, o)]).drop s.taken =
      s.unread ++ [LogEntry.mk slot (header, o)] := List.drop_append_of_le_length h.taken_le
  have hlen : ((s.log ++ [LogEntry.mk slot (header, o)]).drop s.taken).length =
      s.unread.length + 1 := by
    rw [hunread, List.length_append, List.length_singleton]
  have hlog : ∀ n, n ≤ s.taken →
      (s.log ++ [LogEntry.mk slot (header, o)]).take n = s.log.take n := by
    intro n hn
    exact List.take_append_of_le_length (hn.trans h.taken_le)
  refine ⟨?_, ?_, h.server_offset, ?_, ?_, ?_, ?_, trivial, ?_, ?_, h.results_ok, ?_⟩
  · -- the token held is now that of a slot in use
    change s.segment.writer + 0 + ((s.log ++ [_]).drop s.taken).length +
      s.readPhase.returning = totalAmount
    omega
  · change s.segment.reader + 1 + s.readPhase.awaits + s.readPhase.taking =
      ((s.log ++ [_]).drop s.taken).length
    omega
  · -- the cursor had been moved already
    change s.client.offset =
      (s.server.offset + ((s.log ++ [_]).drop s.taken).length + 0) % totalAmount
    rw [hoffset, hlen]
    rfl
  · simp only [List.length_append]
    exact h.taken_le.trans (Nat.le_add_right _ _)
  · intro e he
    rcases List.mem_append.mp he with he | he
    · exact h.messages e he
    · cases List.mem_singleton.mp he
      exact hmessage
  · -- the slot behind the last message holds the new one
    have hentry : HoldsEntry s.segment.store
        ((s.server.offset + s.unread.length) % totalAmount) ⟨slot, header, o⟩ := by
      rw [← hslot]
      exact ⟨rfl, hmessage, hin⟩
    change RingHolds _ _ _ ((s.log ++ [_]).drop s.taken)
    rw [hunread]
    exact h.slots.concat hentry
  · exact h.reading.append_log h.taken_le _
  · simp only [returned] at *
    rw [hlog _ (Nat.sub_le _ _)]
    exact h.returned_eq
  · intro hawaited
    obtain ⟨htaking, hpos⟩ := h.awaited_unread hawaited
    refine ⟨htaking, ?_⟩
    change 0 < ((s.log ++ [_]).drop s.taken).length
    omega

/-- **Every step of a call of `write` preserves the invariant.** -/
theorem Inv.stepWriter (h : s.Inv) (hstep : s.stepWriter = some t) : t.Inv := by
  unfold RingSystem.stepWriter at hstep
  cases hphase : s.writePhase with
  | idle =>
      rw [hphase] at hstep
      cases hstep
  | waiting header o size =>
      rw [hphase] at hstep
      cases hcount : s.segment.writer with
      | zero =>
          simp only [hcount] at hstep
          cases hstep
      | succ writer =>
          simp only [hcount] at hstep
          cases hstep
          exact h.takeSlot hphase hcount
  | copying header o size copied =>
      rw [hphase] at hstep
      by_cases hlt : copied < DataHeader.headerSize + size
      · simp only [if_pos hlt] at hstep
        cases hstep
        exact h.copyIn hphase hlt
      · simp only [if_neg hlt] at hstep
        cases hstep
        exact h.endCopyIn hphase hlt
  | copied header o =>
      rw [hphase] at hstep
      cases hstep
      exact h.advanceWriter hphase
  | advanced header o slot =>
      rw [hphase] at hstep
      cases hstep
      exact h.postReader hphase

/-! ## Steps of the reader -/

/-- A read that ends without a message changes nothing else. -/
theorem Inv.append_error (h : s.Inv) {e : CommunicationError}
    (he : e = .noDataAvailable ∨ e = .readError) :
    Inv { s with awaited := false, results := s.results ++ [.ok (.error e)] } := by
  refine { h with
    returned_eq := ?_
    results_ok := ?_
    awaited_unread := fun hawaited => by cases hawaited }
  · rw [← h.returned_eq]
    simp [returned, List.filterMap_append]
  · intro r hr
    rcases List.mem_append.mp hr with hr | hr
    · exact h.results_ok r hr
    · rw [List.mem_singleton.mp hr]
      rcases he with rfl | rfl
      · exact .inr (.inl rfl)
      · exact .inr (.inr rfl)

/-- Calling `read` preserves the invariant. -/
theorem Inv.startRead (h : s.Inv) (hphase : s.readPhase = .idle) : s.startRead.Inv := by
  have hreader := h.reader_tokens
  have hwriter := h.writer_tokens
  have hreturned := h.returned_eq
  rw [hphase] at hreader hwriter hreturned
  cases hcount : s.segment.reader with
  | zero =>
      have hstart : s.startRead = { s with
          awaited := false, results := s.results ++ [.ok (.error .noDataAvailable)] } := by
        rw [RingSystem.startRead, hcount]
      rw [hstart]
      exact h.append_error (.inl rfl)
  | succ reader =>
      have hstart : s.startRead = { s with
          segment := { s.segment with reader }, readPhase := .copying 0, awaited := false } := by
        rw [RingSystem.startRead, hcount]
      rw [hstart]
      simp only [hcount, ReadPhase.awaits, ReadPhase.taking] at hreader
      -- the token belongs to the first message to read
      have hpos : 0 < s.unread.length := by omega
      obtain ⟨e, es, hunread⟩ := List.exists_cons_of_length_pos hpos
      exact { h with
        reader_tokens := by
          change reader + 0 + 1 = s.unread.length
          omega
        writer_tokens := hwriter
        returned_eq := hreturned
        reading := ⟨Nat.zero_le _, e, by
          change s.unread.head? = some e
          rw [hunread, List.head?_cons], by simp⟩
        awaited_unread := fun hawaited => by cases hawaited }

/-- Awaiting data preserves the invariant. -/
theorem Inv.await (h : s.Inv) (hphase : s.readPhase = .idle) {reader : ℕ}
    (hcount : s.segment.reader = reader + 1) :
    Inv { s with segment := { s.segment with reader }, readPhase := .awaiting } := by
  have hreader := h.reader_tokens
  have hwriter := h.writer_tokens
  have hreturned := h.returned_eq
  have hawaited := h.awaited_unread
  rw [hphase] at hreader hwriter hreturned hawaited
  simp only [hcount, ReadPhase.awaits, ReadPhase.taking] at hreader
  exact { h with
    reader_tokens := by
      change reader + 1 + 0 = s.unread.length
      omega
    writer_tokens := hwriter
    returned_eq := hreturned
    reading := trivial
    awaited_unread := hawaited }

/-- Copying one more byte of a slot to the buffer. -/
theorem Inv.copyOut (h : s.Inv) {copied : ℕ} (hphase : s.readPhase = .copying copied)
    (hlt : copied < bufferSize) :
    Inv { s with
      server := { s.server with
        buffer := s.server.buffer.write copied
          [s.segment.store (s.server.offset * bufferSize + copied)] }
      readPhase := .copying (copied + 1) } := by
  have hreader := h.reader_tokens
  have hwriter := h.writer_tokens
  have hreturned := h.returned_eq
  have hawaited := h.awaited_unread
  have hreading := h.reading
  rw [hphase] at hreader hwriter hreturned hawaited
  rw [Reading, hphase] at hreading
  obtain ⟨hle, e, hhead, hcopied⟩ := hreading
  refine { h with
    reader_tokens := hreader
    writer_tokens := hwriter
    returned_eq := hreturned
    awaited_unread := hawaited
    reading := ⟨hlt, e, hhead, ?_⟩ }
  change (s.server.buffer.write _ _).read _ _ = _
  by_cases hlen : copied < (imageOf e.message).length
  · -- a byte of the message, which is in the slot the reader copies from
    have hslot : InSlot s.segment.store s.server.offset e.message := by
      obtain ⟨es, hunread⟩ := List.head?_eq_some_iff.mp hhead
      have hslots := h.slots
      rw [hunread] at hslots
      have hhold := hslots.head
      rw [Nat.mod_eq_of_lt h.server_offset] at hhold
      exact hhold.2.2
    have hbyte : s.segment.store (s.server.offset * bufferSize + copied) =
        (imageOf e.message)[copied] :=
      Memory.apply_of_read_eq hslot hlen
    rw [Nat.min_eq_left hlen.le] at hcopied
    rw [Nat.min_eq_left hlen, Memory.read_succ,
      Memory.read_write_of_disjoint _ _ (Or.inl (Nat.zero_add _).le), hcopied, Nat.zero_add,
      Memory.write_apply_self, hbyte, List.take_succ_eq_append_getElem hlen]
  · -- a byte behind the message
    have hge : (imageOf e.message).length ≤ copied := Nat.le_of_not_lt hlen
    rw [Nat.min_eq_right hge] at hcopied
    rw [Nat.min_eq_right (hge.trans (Nat.le_succ _)),
      Memory.read_write_of_disjoint _ _ (Or.inl (by omega)), hcopied,
      List.take_of_length_le hge, List.take_of_length_le (hge.trans (Nat.le_succ _))]

/-- The writer is not disturbed when the reader's cursor advances: only a writer that has moved its own
cursor refers to it, and the slot behind the messages to read stays the same. -/
theorem Writing.advance_reader (h : s.Writing)
    (hslot : ((s.server.offset + 1) % totalAmount + (s.log.drop (s.taken + 1)).length) % totalAmount =
      (s.server.offset + s.unread.length) % totalAmount) :
    Writing { s with
      server := { s.server with offset := (s.server.offset + 1) % totalAmount }
      readPhase := .advanced
      taken := s.taken + 1 } := by
  rw [Writing] at h ⊢
  cases hphase : s.writePhase with
  | advanced header o slot =>
      simp only [hphase] at h ⊢
      exact ⟨h.1.trans hslot.symm, h.2⟩
  | idle => trivial
  | _ =>
      simp only [hphase] at h ⊢
      exact h

/-- Advancing the reader's cursor takes the first message out of the ring. -/
theorem Inv.advanceReader (h : s.Inv) (hphase : s.readPhase = .copied) :
    Inv { s with
      server := { s.server with offset := (s.server.offset + 1) % totalAmount }
      readPhase := .advanced
      taken := s.taken + 1 } := by
  have hreader := h.reader_tokens
  have hwriter := h.writer_tokens
  have hreturned := h.returned_eq
  have hreading := h.reading
  have hslots := h.slots
  have hclient := h.client_offset
  rw [hphase] at hreader hwriter hreturned
  rw [Reading, hphase] at hreading
  obtain ⟨e, hhead, hloaded⟩ := hreading
  obtain ⟨es, hunread⟩ := List.head?_eq_some_iff.mp hhead
  have hrest : s.log.drop (s.taken + 1) = es := by
    rw [← List.drop_drop, ← unread, hunread, List.drop_one, List.tail_cons]
  have hlen : s.unread.length = es.length + 1 := by
    rw [hunread, List.length_cons]
  have hfirst : s.log[s.taken]? = some e := by
    have := congrArg (fun l : List LogEntry => l[0]?) hunread
    simpa [unread] using this
  have hlt : s.taken < s.log.length := (List.getElem?_eq_some_iff.mp hfirst).1
  simp only [ReadPhase.awaits, ReadPhase.taking, ReadPhase.returning] at hreader hwriter
  rw [hunread] at hslots
  -- the cursors keep their distance to the messages that stay
  have hshift : ∀ k, ((s.server.offset + 1) % totalAmount + es.length + k) % totalAmount =
      (s.server.offset + s.unread.length + k) % totalAmount := by
    intro k
    rw [hlen, Nat.add_assoc, Nat.mod_add_mod]
    congr 1
    omega
  refine ⟨?_, ?_, Nat.mod_lt _ (by decide), ?_, hlt, h.messages, ?_, ?_, ?_, ?_, h.results_ok, ?_⟩
  · -- the slot is not in use any more, but its token is still to be given back
    change s.segment.writer + s.writePhase.held + (s.log.drop (s.taken + 1)).length + 1 = totalAmount
    rw [hrest]
    omega
  · change s.segment.reader + 0 + 0 = (s.log.drop (s.taken + 1)).length
    rw [hrest]
    omega
  · change s.client.offset = ((s.server.offset + 1) % totalAmount +
      (s.log.drop (s.taken + 1)).length + s.writePhase.moved) % totalAmount
    rw [hrest, hshift, hclient]
  · change RingHolds _ _ _ (s.log.drop (s.taken + 1))
    rw [hrest]
    exact hslots.tail
  · refine h.writing.advance_reader ?_
    rw [hrest]
    exact hshift 0
  · exact ⟨Nat.succ_pos _, e, hfirst, hloaded⟩
  · exact hreturned
  · -- a read has started, so nothing is awaited
    intro hawaited
    have htaking := (h.awaited_unread hawaited).1
    rw [hphase] at htaking
    cases htaking

/-- Decoding a message returns it. -/
theorem Inv.decode (h : s.Inv) (hphase : s.readPhase = .posted) :
    (∃ m, slotOutcome s.server.buffer = .ok (.ok m)) ∧
      Inv { s with readPhase := .idle, results := s.results ++ [slotOutcome s.server.buffer] } := by
  have hreader := h.reader_tokens
  have hwriter := h.writer_tokens
  have hreturned := h.returned_eq
  have hawaited := h.awaited_unread
  have hreading := h.reading
  rw [hphase] at hreader hwriter hreturned hawaited
  rw [Reading, hphase] at hreading
  obtain ⟨hpos, e, hlast, hloaded⟩ := hreading
  have houtcome : slotOutcome s.server.buffer = .ok (.ok e.message) :=
    slotOutcome_of_loaded (h.messages e (List.mem_of_getElem? hlast)) hloaded
  rw [houtcome]
  refine ⟨⟨_, rfl⟩, { h with
    reader_tokens := hreader
    writer_tokens := hwriter
    reading := trivial
    returned_eq := ?_
    results_ok := ?_
    awaited_unread := hawaited }⟩
  · -- the message returned is the next one of the log
    have hsucc : s.taken = s.taken - 1 + 1 := by omega
    have hone : ReadPhase.posted.decoding = 1 := rfl
    have hzero : ReadPhase.idle.decoding = 0 := rfl
    rw [hone] at hreturned
    simp only [returned] at hreturned ⊢
    rw [List.filterMap_append, hreturned, hzero, Nat.sub_zero]
    conv_rhs => rw [hsucc, List.take_add_one, hlast]
    simp
  · intro r hr
    rcases List.mem_append.mp hr with hr | hr
    · exact h.results_ok r hr
    · rw [List.mem_singleton.mp hr]
      exact .inl ⟨_, rfl⟩

/-- When the whole slot is copied, the message is in the buffer. -/
theorem Inv.endCopyOut (h : s.Inv) {copied : ℕ} (hphase : s.readPhase = .copying copied)
    (hge : ¬ copied < bufferSize) : Inv { s with readPhase := .copied } := by
  have hreader := h.reader_tokens
  have hwriter := h.writer_tokens
  have hreturned := h.returned_eq
  have hawaited := h.awaited_unread
  have hreading := h.reading
  rw [hphase] at hreader hwriter hreturned hawaited
  rw [Reading, hphase] at hreading
  obtain ⟨hle, e, hhead, hcopied⟩ := hreading
  have hmessage : IsMessage e.message := by
    obtain ⟨es, hunread⟩ := List.head?_eq_some_iff.mp hhead
    refine h.messages e (List.mem_of_mem_drop (i := s.taken) ?_)
    rw [← unread, hunread]
    exact List.mem_cons_self
  have hlen : (imageOf e.message).length ≤ copied :=
    hmessage.length_le.trans (Nat.le_of_not_lt hge)
  rw [Nat.min_eq_right hlen, List.take_of_length_le hlen] at hcopied
  exact { h with
    reader_tokens := hreader
    writer_tokens := hwriter
    returned_eq := hreturned
    awaited_unread := hawaited
    reading := ⟨e, hhead, hcopied⟩ }

/-- Posting `writer_`: the slot is free again. -/
theorem Inv.postWriter (h : s.Inv) (hphase : s.readPhase = .advanced) :
    Inv { s with
      segment := { s.segment with writer := s.segment.writer + 1 }
      readPhase := .posted } := by
  have hreader := h.reader_tokens
  have hwriter := h.writer_tokens
  have hreturned := h.returned_eq
  have hawaited := h.awaited_unread
  have hreading := h.reading
  rw [hphase] at hreader hwriter hreturned hawaited
  rw [Reading, hphase] at hreading
  simp only [ReadPhase.returning] at hwriter
  exact { h with
    reader_tokens := hreader
    writer_tokens := by
      change s.segment.writer + 1 + s.writePhase.held + s.unread.length + 0 = totalAmount
      omega
    returned_eq := hreturned
    awaited_unread := hawaited
    reading := hreading }

/-- The end of `await_data`: the token is put back, and belongs to a message to read. -/
theorem Inv.endAwait (h : s.Inv) (hphase : s.readPhase = .awaiting) :
    Inv { s with
      segment := { s.segment with reader := s.segment.reader + 1 }
      readPhase := .idle
      awaited := true } := by
  have hreader := h.reader_tokens
  have hwriter := h.writer_tokens
  have hreturned := h.returned_eq
  rw [hphase] at hreader hwriter hreturned
  simp only [ReadPhase.awaits, ReadPhase.taking] at hreader
  exact { h with
    reader_tokens := by
      change s.segment.reader + 1 + 0 + 0 = s.unread.length
      omega
    writer_tokens := hwriter
    returned_eq := hreturned
    reading := trivial
    awaited_unread := by
      intro _
      refine ⟨rfl, ?_⟩
      change 0 < s.unread.length
      omega }

/-- **Every step of a call of `read` or `await_data` preserves the invariant.** -/
theorem Inv.stepReader (h : s.Inv) (hstep : s.stepReader = some t) : t.Inv := by
  unfold RingSystem.stepReader at hstep
  cases hphase : s.readPhase with
  | idle =>
      rw [hphase] at hstep
      cases hstep
  | copying copied =>
      rw [hphase] at hstep
      by_cases hlt : copied < bufferSize
      · simp only [if_pos hlt] at hstep
        cases hstep
        exact h.copyOut hphase hlt
      · simp only [if_neg hlt] at hstep
        cases hstep
        exact h.endCopyOut hphase hlt
  | copied =>
      rw [hphase] at hstep
      cases hstep
      exact h.advanceReader hphase
  | advanced =>
      rw [hphase] at hstep
      cases hstep
      exact h.postWriter hphase
  | posted =>
      rw [hphase] at hstep
      cases hstep
      exact (h.decode hphase).2
  | awaiting =>
      rw [hphase] at hstep
      cases hstep
      exact h.endAwait hphase

/-! ## Runs -/

/-- **What a step can be**: a call starts or fails while its side is idle, the wait of the writer is
interrupted, or one side goes on. -/
theorem step_cases {a : RingAction} (hstep : s.step a = some t) :
    (∃ o timestamp, s.writePhase = .idle ∧ t = s.startWrite o timestamp) ∨
    s.stepWriter = some t ∨
    ((∃ header o size, s.writePhase = .waiting header o size) ∧ t = { s with writePhase := .idle }) ∨
    (s.readPhase = .idle ∧ t = s.startRead) ∨
    (s.readPhase = .idle ∧
      t = { s with awaited := false, results := s.results ++ [.ok (.error .readError)] }) ∨
    (s.readPhase = .idle ∧ ∃ reader, s.segment.reader = reader + 1 ∧
      t = { s with segment := { s.segment with reader }, readPhase := .awaiting }) ∨
    (s.readPhase = .idle ∧ t = s) ∨
    s.stepReader = some t := by
  cases a with
  | write o timestamp =>
      simp only [step] at hstep
      split at hstep
      · rename_i hphase
        cases hstep
        exact .inl ⟨o, timestamp, hphase, rfl⟩
      · cases hstep
  | writer => exact .inr (.inl hstep)
  | interrupt =>
      simp only [step] at hstep
      split at hstep
      · rename_i header o size hphase
        cases hstep
        exact .inr (.inr (.inl ⟨⟨header, o, size, hphase⟩, rfl⟩))
      · cases hstep
  | read =>
      simp only [step] at hstep
      split at hstep
      · rename_i hphase
        cases hstep
        exact .inr (.inr (.inr (.inl ⟨hphase, rfl⟩)))
      · cases hstep
  | readFails =>
      simp only [step] at hstep
      split at hstep
      · rename_i hphase
        cases hstep
        exact .inr (.inr (.inr (.inr (.inl ⟨hphase, rfl⟩))))
      · cases hstep
  | await =>
      simp only [step] at hstep
      split at hstep
      · rename_i reader hphase hcount
        cases hstep
        exact .inr (.inr (.inr (.inr (.inr (.inl ⟨hphase, reader, hcount, rfl⟩)))))
      · cases hstep
  | awaitFails =>
      simp only [step] at hstep
      split at hstep
      · rename_i hphase
        cases hstep
        exact .inr (.inr (.inr (.inr (.inr (.inr (.inl ⟨hphase, rfl⟩))))))
      · cases hstep
  | reader => exact .inr (.inr (.inr (.inr (.inr (.inr (.inr hstep))))))

/-- An interrupted wait leaves the ring as it was. -/
theorem Inv.interrupt (h : s.Inv) {header : DataHeader} {o : DataObject} {size : ℕ}
    (hphase : s.writePhase = .waiting header o size) : Inv { s with writePhase := .idle } := by
  have htokens := h.writer_tokens
  have hoffset := h.client_offset
  rw [hphase] at htokens hoffset
  exact { h with
    writer_tokens := htokens
    client_offset := hoffset
    writing := trivial }

/-- **Every step preserves the invariant.** -/
theorem Inv.step (h : s.Inv) {a : RingAction} (hstep : s.step a = some t) : t.Inv := by
  rcases step_cases hstep with ⟨o, timestamp, hphase, rfl⟩ | hwriter |
    ⟨⟨header, o, size, hphase⟩, rfl⟩ | ⟨hphase, rfl⟩ | ⟨hphase, rfl⟩ | ⟨hphase, reader, hcount, rfl⟩ |
    ⟨-, rfl⟩ | hreader
  · exact h.startWrite hphase o timestamp
  · exact h.stepWriter hwriter
  · exact h.interrupt hphase
  · exact h.startRead hphase
  · exact h.append_error (.inr rfl)
  · exact h.await hphase hcount
  · exact h
  · exact h.stepReader hreader

/-- The invariant holds at the start. -/
theorem inv_initial (memory clientBuffer serverBuffer : Memory UInt8) :
    (initial memory clientBuffer serverBuffer).Inv where
  writer_tokens := rfl
  reader_tokens := rfl
  server_offset := show 0 < totalAmount by decide
  client_offset := rfl
  taken_le := le_rfl
  messages := by simp [initial]
  slots := RingHolds.nil _ _ _
  writing := trivial
  reading := trivial
  returned_eq := rfl
  results_ok := by simp [initial]
  awaited_unread := by simp [initial]

/-- **A state in which nothing has gone wrong.** -/
structure Safe (s : RingSystem) : Prop where
  /-- The slot being written is neither the one being read nor one with a message to read. -/
  slots_apart : ∀ header o size copied, s.writePhase = .copying header o size copied →
    (∀ copied', s.readPhase = .copying copied' → s.client.offset ≠ s.server.offset) ∧
      ∀ e ∈ s.unread, s.client.offset ≠ e.slot
  /-- Both copies stay inside the memory. -/
  access_inside :
    (∀ header o size copied, s.writePhase = .copying header o size copied →
      s.client.offset * bufferSize + (DataHeader.headerSize + size) ≤ totalSize) ∧
    ∀ copied, s.readPhase = .copying copied →
      s.server.offset * bufferSize + bufferSize ≤ totalSize
  /-- The messages returned are the first ones written, and no read ends in another way than with a
  message, without data, or with a failed wait. -/
  fifo : s.returned <+: s.log.map LogEntry.message ∧
    ∀ r ∈ s.results, (∃ m, r = .ok (.ok m)) ∨ r = .ok (.error .noDataAvailable) ∨
      r = .ok (.error .readError)
  /-- The first read after `await_data` has returned true finds data. -/
  awaited_read : s.awaited = true → ∀ a t, s.step a = some t →
    t.results ≠ s.results ++ [.ok (.error .noDataAvailable)]

/-- The writer does not touch the results. -/
theorem results_of_stepWriter (hstep : s.stepWriter = some t) : t.results = s.results := by
  unfold stepWriter at hstep
  split at hstep
  · cases hstep
  · split at hstep <;> cases hstep
    rfl
  · split at hstep <;> cases hstep <;> rfl
  · cases hstep
    rfl
  · cases hstep
    rfl

/-- A step of the reader touches the results at the end of a read only. -/
theorem results_of_stepReader (hstep : s.stepReader = some t) :
    t.results = s.results ∨
    (s.readPhase = .posted ∧ t.results = s.results ++ [slotOutcome s.server.buffer]) := by
  unfold stepReader at hstep
  split at hstep
  · cases hstep
  · left
    split at hstep <;> cases hstep <;> rfl
  · left
    cases hstep
    rfl
  · left
    cases hstep
    rfl
  · right
    rename_i hphase
    cases hstep
    exact ⟨hphase, rfl⟩
  · left
    cases hstep
    rfl

/-- Starting a write does not touch the results. -/
theorem results_startWrite (s : RingSystem) (o : DataObject) (timestamp : Int64) :
    (s.startWrite o timestamp).results = s.results := by
  unfold startWrite
  split <;> rfl

/-- Starting a read ends it if there is no token. -/
theorem results_startRead (s : RingSystem) :
    s.startRead.results = s.results ∨
    (s.segment.reader = 0 ∧
      s.startRead.results = s.results ++ [.ok (.error .noDataAvailable)]) := by
  unfold startRead
  cases hcount : s.segment.reader with
  | zero => exact .inr ⟨rfl, rfl⟩
  | succ reader => exact .inl rfl

/-- **What a step does to the results**: nothing; or a read ends without a message; or it ends with
what its buffer decodes to. -/
theorem results_of_step {a : RingAction} (hstep : s.step a = some t) :
    t.results = s.results ∨
    (s.readPhase = .idle ∧ s.segment.reader = 0 ∧
      t.results = s.results ++ [.ok (.error .noDataAvailable)]) ∨
    t.results = s.results ++ [.ok (.error .readError)] ∨
    (s.readPhase = .posted ∧ t.results = s.results ++ [slotOutcome s.server.buffer]) := by
  rcases step_cases hstep with ⟨o, timestamp, -, rfl⟩ | hwriter | ⟨-, rfl⟩ | ⟨hphase, rfl⟩ |
    ⟨-, rfl⟩ | ⟨-, reader, -, rfl⟩ | ⟨-, rfl⟩ | hreader
  · exact .inl (results_startWrite s o timestamp)
  · exact .inl (results_of_stepWriter hwriter)
  · exact .inl rfl
  · rcases results_startRead s with heq | ⟨hcount, heq⟩
    · exact .inl heq
    · exact .inr (.inl ⟨hphase, hcount, heq⟩)
  · exact .inr (.inr (.inl rfl))
  · exact .inl rfl
  · exact .inl rfl
  · rcases results_of_stepReader hreader with heq | hposted
    · exact .inl heq
    · exact .inr (.inr (.inr hposted))

/-- A step that returns `NO_DATA_AVAILABLE` found no token of `reader_`. -/
theorem Inv.reader_eq_zero_of_noData (h : s.Inv) {a : RingAction} (hstep : s.step a = some t)
    (hresults : t.results = s.results ++ [.ok (.error .noDataAvailable)]) :
    s.readPhase = .idle ∧ s.segment.reader = 0 := by
  rcases results_of_step hstep with heq | ⟨hphase, hcount, -⟩ | heq | ⟨hphase, heq⟩
  · rw [heq] at hresults
    have := congrArg List.length hresults
    simp at this
  · exact ⟨hphase, hcount⟩
  · rw [heq, List.append_cancel_left_eq] at hresults
    cases hresults
  · obtain ⟨m, hm⟩ := (h.decode hphase).1
    rw [heq, hm, List.append_cancel_left_eq] at hresults
    cases hresults

/-- The invariant is safe. -/
theorem Inv.safe (h : s.Inv) : s.Safe where
  slots_apart header o size copied hphase := by
    have hlt := h.unread_lt (by rw [hphase]; rfl)
    have hoffset := h.client_offset
    rw [hphase] at hoffset
    simp only [WritePhase.moved, Nat.add_zero] at hoffset
    have hslots : ∀ e ∈ s.unread, s.client.offset ≠ e.slot := by
      intro e he hslot
      obtain ⟨j, hj, rfl⟩ := List.mem_iff_getElem.mp he
      rw [(h.slots j hj).1, hoffset] at hslot
      exact ring_slot_ne hj hlt hslot.symm
    refine ⟨fun copied' hphase' heq => ?_, hslots⟩
    -- the reader copies from the slot of the first message to read
    have hreading := h.reading
    rw [Reading, hphase'] at hreading
    obtain ⟨-, e, hhead, -⟩ := hreading
    obtain ⟨es, hunread⟩ := List.head?_eq_some_iff.mp hhead
    have hall := h.slots
    rw [hunread] at hall
    have hslot := hall.head.1
    rw [Nat.mod_eq_of_lt h.server_offset] at hslot
    exact hslots e (by rw [hunread]; exact List.mem_cons_self) (heq.trans hslot.symm)
  access_inside := by
    constructor
    · intro header o size copied hphase
      have hwriting := h.writing
      rw [Writing, hphase] at hwriting
      obtain ⟨⟨hmessage, -⟩, rfl, -⟩ := hwriting
      have hlen := hmessage.length_le
      have hoffset : s.client.offset < totalAmount := by
        rw [h.client_offset]
        exact Nat.mod_lt _ (by decide)
      rw [length_imageOf] at hlen
      simp only [totalSize, totalAmount, bufferSize, DataHeader.headerSize] at hlen hoffset ⊢
      omega
    · intro copied _
      have hoffset := h.server_offset
      simp only [totalSize, totalAmount, bufferSize, DataHeader.headerSize] at hoffset ⊢
      omega
  fifo := by
    refine ⟨?_, h.results_ok⟩
    rw [h.returned_eq]
    exact (List.take_prefix _ _).map _
  awaited_read hawaited a t hstep hresults := by
    obtain ⟨hphase, hcount⟩ := h.reader_eq_zero_of_noData hstep hresults
    have hreader := h.reader_tokens
    have hpos := (h.awaited_unread hawaited).2
    rw [hphase, hcount] at hreader
    simp only [ReadPhase.awaits, ReadPhase.taking] at hreader
    omega

/-- **The ring protocol is safe.** Whatever the objects are, and in whatever order the steps of the
writer and the reader are taken, nothing goes wrong in any state. -/
theorem safe_of_run (memory clientBuffer serverBuffer : Memory UInt8) (actions : List RingAction)
    (s : RingSystem)
    (hrun : runAll step (initial memory clientBuffer serverBuffer) actions = some s) : s.Safe := by
  have hinv : s.Inv :=
    runAll_invariant (P := fun _ _ => True) (fun _ _ _ h _ hstep => h.step hstep)
      (inv_initial memory clientBuffer serverBuffer) (along_of_forall (fun _ _ => trivial) _) hrun
  exact hinv.safe

/-- A ping is written, awaited and read, and a second one is on its way when the read ends. -/
def pingActions : List RingAction :=
  .write .ping 7 :: (List.replicate 20 RingAction.writer ++
    [RingAction.await, .reader, .read, .write .ping 8, .writer] ++
    List.replicate 532 RingAction.reader)

/-- The two pings: every state passed is safe, among them the last one. -/
theorem safe_of_run_pings : ∃ s,
    runAll step (initial (fun _ => 0) (fun _ => 0) (fun _ => 0)) pingActions = some s ∧ s.Safe := by
  have hsome : (runAll step (initial (fun _ => 0) (fun _ => 0) (fun _ => 0)) pingActions).isSome =
      true := by decide +kernel
  obtain ⟨s, hrun⟩ := Option.isSome_iff_exists.mp hsome
  exact ⟨s, hrun, safe_of_run _ _ _ pingActions s hrun⟩

end RingSystem

end IpcPerformance
