import IpcPerformance.Handler.SharedMemoryProtocol
import IpcPerformance.Library.Progress

/-! # Progress of the shared memory ring

A call of `write` may have to wait for a slot, and copies its message byte by byte; a call of `read` copies
a whole slot, and gives it back. As long as no further `write` is called and no system call fails, both
sides work off a measure, and one of them can always go on: a writer that waits for a slot is waiting for
the reader, which has something to read.

* `RingSystem.settles` — so the ring is drained in the end.
* `RingSystem.drains_of_run` — from any reachable state, in a bounded number of steps, with every message
  returned, the one that has been waiting included. -/

namespace IpcPerformance

/-- The message a call of `write` is going to send. -/
def WritePhase.pending : WritePhase → List (DataHeader × DataObject)
  | idle => []
  | waiting header o _ => [(header, o)]
  | copying header o _ _ => [(header, o)]
  | copied header o => [(header, o)]
  | advanced header o _ => [(header, o)]

namespace RingSystem

/-- The steps of a whole call of `read`, and some more for awaiting the data before. -/
def readCost : ℕ := bufferSize + 7

/-- What the writer has still to do, and the reader because of it. -/
def writeWork : WritePhase → ℕ
  | .idle => 0
  | .waiting _ _ size => DataHeader.headerSize + size + 4 + readCost
  | .copying _ _ size copied => DataHeader.headerSize + size - copied + 3 + readCost
  | .copied _ _ => 2 + readCost
  | .advanced _ _ _ => 1 + readCost

/-- What the reader has still to do. Between two calls it may await data once. -/
def readWork (awaited : Bool) : ReadPhase → ℕ
  | .idle => if awaited then bufferSize + 3 else bufferSize + 5
  | .awaiting => bufferSize + 4
  | .copying copied => bufferSize - copied + 2
  | .copied => 1
  | .advanced => bufferSize + 7
  | .posted => bufferSize + 6

/-- What is still to be done. -/
def work (s : RingSystem) : ℕ :=
  writeWork s.writePhase + readWork s.awaited s.readPhase + readCost * s.unread.length

/-- No further message is written, no system call fails, and the reader reads when there is something to
read. -/
def Quiet (s : RingSystem) : RingAction → Prop
  | .write _ _ => False
  | .interrupt => False
  | .readFails => False
  | .read => 0 < s.segment.reader
  | .await => s.awaited = false
  | .writer => True
  | .reader => True
  | .awaitFails => True

instance (s : RingSystem) : (a : RingAction) → Decidable (s.Quiet a)
  | .write _ _ | .interrupt | .readFails => inferInstanceAs (Decidable False)
  | .read => inferInstanceAs (Decidable (0 < s.segment.reader))
  | .await => inferInstanceAs (Decidable (s.awaited = false))
  | .writer | .reader | .awaitFails => inferInstanceAs (Decidable True)

/-- Nothing gets done: `await_data` times out. -/
def timesOut : RingAction → Bool
  | .awaitFails => true
  | _ => false

/-- Nobody is in a call, and nothing is left to read. -/
def Drained (s : RingSystem) : Prop := s.writePhase = .idle ∧ s.readPhase = .idle ∧ s.unread = []

/-- The messages written, with the one that is just being written. -/
def sent (s : RingSystem) : List (DataHeader × DataObject) :=
  s.log.map LogEntry.message ++ s.writePhase.pending

variable {s t : RingSystem}

/-! ## Steps -/

/-- A step of the writer brings its message closer to the log. -/
theorem Inv.work_stepWriter (h : s.Inv) (hstep : s.stepWriter = some t) :
    t.work < s.work ∧ t.sent = s.sent := by
  unfold RingSystem.stepWriter at hstep
  cases hphase : s.writePhase with
  | idle =>
      rw [hphase] at hstep
      cases hstep
  | waiting header o size =>
      rw [hphase] at hstep
      cases hcount : s.segment.writer with
      | zero =>
          simp only [hcount] at hstep
          cases hstep
      | succ writer =>
          simp only [hcount] at hstep
          cases hstep
          refine ⟨?_, by rw [sent, sent, hphase]; rfl⟩
          rw [work, work, hphase]
          change DataHeader.headerSize + size - 0 + 3 + readCost + _ + readCost * s.unread.length < _
          simp only [writeWork]
          omega
  | copying header o size copied =>
      rw [hphase] at hstep
      by_cases hlt : copied < DataHeader.headerSize + size
      · simp only [if_pos hlt] at hstep
        cases hstep
        refine ⟨?_, by rw [sent, sent, hphase]; rfl⟩
        rw [work, work, hphase]
        change DataHeader.headerSize + size - (copied + 1) + 3 + readCost + _ +
          readCost * s.unread.length < _
        simp only [writeWork]
        omega
      · simp only [if_neg hlt] at hstep
        cases hstep
        refine ⟨?_, by rw [sent, sent, hphase]; rfl⟩
        rw [work, work, hphase]
        change 2 + readCost + _ + readCost * s.unread.length < _
        simp only [writeWork]
        omega
  | copied header o =>
      rw [hphase] at hstep
      cases hstep
      refine ⟨?_, by rw [sent, sent, hphase]; rfl⟩
      rw [work, work, hphase]
      change 1 + readCost + _ + readCost * s.unread.length < _
      simp only [writeWork]
      omega
  | advanced header o slot =>
      rw [hphase] at hstep
      cases hstep
      have hunread : (s.log ++ [LogEntry.mk slot (header, o)]).drop s.taken =
          s.unread ++ [LogEntry.mk slot (header, o)] := List.drop_append_of_le_length h.taken_le
      refine ⟨?_, ?_⟩
      · rw [work, work, hphase]
        change 0 + _ + readCost * ((s.log ++ [LogEntry.mk slot (header, o)]).drop s.taken).length < _
        rw [hunread, List.length_append, List.length_singleton]
        simp only [writeWork, Nat.mul_add, Nat.mul_one]
        omega
      · rw [sent, sent, hphase]
        change (s.log ++ [_]).map LogEntry.message ++ [] = _
        rw [List.map_append, List.append_nil]
        rfl

/-- A step of the reader brings it closer to its next call. -/
theorem Inv.work_stepReader (h : s.Inv) (hstep : s.stepReader = some t) :
    t.work < s.work ∧ t.sent = s.sent := by
  unfold RingSystem.stepReader at hstep
  cases hphase : s.readPhase with
  | idle =>
      rw [hphase] at hstep
      cases hstep
  | copying copied =>
      rw [hphase] at hstep
      by_cases hlt : copied < bufferSize
      · simp only [if_pos hlt] at hstep
        cases hstep
        refine ⟨?_, rfl⟩
        rw [work, work, hphase]
        change writeWork s.writePhase + (bufferSize - (copied + 1) + 2) + readCost * s.unread.length < _
        simp only [readWork]
        omega
      · simp only [if_neg hlt] at hstep
        cases hstep
        refine ⟨?_, rfl⟩
        rw [work, work, hphase]
        change writeWork s.writePhase + 1 + readCost * s.unread.length < _
        simp only [readWork]
        omega
  | copied =>
      rw [hphase] at hstep
      cases hstep
      refine ⟨?_, rfl⟩
      -- the message is taken out of the ring
      have hreading := h.reading
      rw [Reading, hphase] at hreading
      obtain ⟨e, hhead, -⟩ := hreading
      obtain ⟨es, hunread⟩ := List.head?_eq_some_iff.mp hhead
      have hrest : s.log.drop (s.taken + 1) = es := by
        rw [← List.drop_drop, ← unread, hunread, List.drop_one, List.tail_cons]
      rw [work, work, hphase, hunread]
      change writeWork s.writePhase + (bufferSize + 7) +
        readCost * (s.log.drop (s.taken + 1)).length < _
      rw [hrest, List.length_cons]
      simp only [readWork, readCost, Nat.mul_add, Nat.mul_one]
      omega
  | advanced =>
      rw [hphase] at hstep
      cases hstep
      refine ⟨?_, rfl⟩
      rw [work, work, hphase]
      change writeWork s.writePhase + (bufferSize + 6) + readCost * s.unread.length < _
      simp only [readWork]
      omega
  | posted =>
      rw [hphase] at hstep
      cases hstep
      refine ⟨?_, rfl⟩
      rw [work, work, hphase]
      change writeWork s.writePhase + (if s.awaited then bufferSize + 3 else bufferSize + 5) +
        readCost * s.unread.length < _
      simp only [readWork]
      split_ifs <;> omega
  | awaiting =>
      rw [hphase] at hstep
      cases hstep
      refine ⟨?_, rfl⟩
      rw [work, work, hphase]
      change writeWork s.writePhase + (bufferSize + 3) + readCost * s.unread.length < _
      simp only [readWork]
      omega

/-- A call of `read` with something to read. -/
theorem work_startRead (hphase : s.readPhase = .idle) (hpos : 0 < s.segment.reader) :
    s.startRead.work < s.work ∧ s.startRead.sent = s.sent := by
  obtain ⟨reader, hcount⟩ := Nat.exists_eq_succ_of_ne_zero hpos.ne'
  have hstart : s.startRead = { s with
      segment := { s.segment with reader }, readPhase := .copying 0, awaited := false } := by
    rw [startRead, hcount]
  rw [hstart]
  refine ⟨?_, rfl⟩
  rw [work, work, hphase]
  change writeWork s.writePhase + (bufferSize - 0 + 2) + readCost * s.unread.length < _
  simp only [readWork]
  split_ifs <;> omega

/-- **What a quiet step does**: it gets something done, or nothing happens. -/
theorem Inv.work_step (h : s.Inv) {a : RingAction} (hquiet : s.Quiet a) (hstep : s.step a = some t) :
    (timesOut a = false → t.work < s.work) ∧ t.work ≤ s.work ∧ t.sent = s.sent := by
  have hfalls : t.work < s.work ∧ t.sent = s.sent →
      (timesOut a = false → t.work < s.work) ∧ t.work ≤ s.work ∧ t.sent = s.sent :=
    fun hless => ⟨fun _ => hless.1, hless.1.le, hless.2⟩
  cases a with
  | write o timestamp => exact hquiet.elim
  | interrupt => exact hquiet.elim
  | readFails => exact hquiet.elim
  | writer => exact hfalls (h.work_stepWriter hstep)
  | reader => exact hfalls (h.work_stepReader hstep)
  | read =>
      cases hphase : s.readPhase with
      | idle =>
          simp only [RingSystem.step, hphase] at hstep
          cases hstep
          exact hfalls (work_startRead hphase hquiet)
      | _ =>
          simp only [RingSystem.step, hphase] at hstep
          cases hstep
  | await =>
      have hawaited : s.awaited = false := hquiet
      simp only [RingSystem.step] at hstep
      split at hstep
      · rename_i reader hphase hcount
        cases hstep
        refine hfalls ⟨?_, rfl⟩
        rw [work, work, hphase, hawaited]
        change writeWork s.writePhase + (bufferSize + 4) + readCost * s.unread.length < _
        simp only [readWork, Bool.false_eq_true, if_false]
        omega
      · cases hstep
  | awaitFails =>
      simp only [RingSystem.step] at hstep
      split at hstep
      · cases hstep
        exact ⟨fun hidle => Bool.noConfusion hidle, le_rfl, rfl⟩
      · cases hstep

/-! ## Somebody can go on -/

/-- A writer in a call goes on, or waits for a slot. -/
theorem exists_stepWriter (hphase : s.writePhase ≠ .idle) :
    (∃ t, s.stepWriter = some t) ∨
      ((∃ header o size, s.writePhase = .waiting header o size) ∧ s.segment.writer = 0) := by
  unfold RingSystem.stepWriter
  cases hwrite : s.writePhase with
  | idle => exact absurd hwrite hphase
  | waiting header o size =>
      cases hcount : s.segment.writer with
      | zero => exact .inr ⟨⟨header, o, size, rfl⟩, rfl⟩
      | succ writer => exact .inl ⟨_, rfl⟩
  | copying header o size copied =>
      by_cases hlt : copied < DataHeader.headerSize + size
      · exact .inl ⟨_, if_pos hlt⟩
      · exact .inl ⟨_, if_neg hlt⟩
  | copied header o => exact .inl ⟨_, rfl⟩
  | advanced header o slot => exact .inl ⟨_, rfl⟩

/-- A reader in a call goes on. -/
theorem exists_stepReader (hphase : s.readPhase ≠ .idle) : ∃ t, s.stepReader = some t := by
  unfold RingSystem.stepReader
  cases hread : s.readPhase with
  | idle => exact absurd hread hphase
  | copying copied =>
      by_cases hlt : copied < bufferSize
      · exact ⟨_, if_pos hlt⟩
      · exact ⟨_, if_neg hlt⟩
  | copied => exact ⟨_, rfl⟩
  | advanced => exact ⟨_, rfl⟩
  | posted => exact ⟨_, rfl⟩
  | awaiting => exact ⟨_, rfl⟩

/-- A reader with something to read goes on, in a call or with a new one. -/
theorem Inv.exists_reader (h : s.Inv) (hunread : s.readPhase = .idle → s.unread ≠ []) :
    ∃ a t, timesOut a = false ∧ s.Quiet a ∧ s.step a = some t := by
  by_cases hphase : s.readPhase = .idle
  · have hreader := h.reader_tokens
    rw [hphase] at hreader
    simp only [ReadPhase.awaits, ReadPhase.taking, Nat.add_zero] at hreader
    have hpos : 0 < s.segment.reader := by
      rw [hreader]
      exact List.length_pos_iff.mpr (hunread hphase)
    exact ⟨.read, s.startRead, rfl, hpos, by simp only [RingSystem.step, hphase]⟩
  · obtain ⟨t, hstep⟩ := exists_stepReader hphase
    exact ⟨.reader, t, rfl, trivial, hstep⟩

/-- **There is no deadlock**: a writer that waits for a slot waits for the reader, which can go on. -/
theorem Inv.exists_quiet (h : s.Inv) (hdrained : ¬ s.Drained) :
    ∃ a t, timesOut a = false ∧ s.Quiet a ∧ s.step a = some t := by
  by_cases hwrite : s.writePhase = .idle
  · refine h.exists_reader fun hread hunread => hdrained ⟨hwrite, hread, hunread⟩
  · rcases exists_stepWriter hwrite with ⟨t, hstep⟩ | ⟨⟨header, o, size, hwaiting⟩, hcount⟩
    · exact ⟨.writer, t, rfl, trivial, hstep⟩
    · -- all slots are in use, or the reader is about to give one back
      refine h.exists_reader fun hread hunread => ?_
      have htokens := h.writer_tokens
      rw [hwaiting, hread, hunread, hcount] at htokens
      simp only [WritePhase.held, ReadPhase.returning, List.length_nil] at htokens
      exact absurd htokens (by decide)

/-- **The ring drains**, and nothing is lost on the way. -/
theorem settles (messages : List (DataHeader × DataObject)) :
    Settling step Quiet (fun s => s.Inv ∧ s.sent = messages) Drained timesOut work where
  keeps h hquiet hstep := ⟨h.1.step hstep, (h.1.work_step hquiet hstep).2.2.trans h.2⟩
  falls h hquiet hidle hstep := (h.1.work_step hquiet hstep).1 hidle
  stays h hquiet _ hstep := (h.1.work_step hquiet hstep).2.1
  moves h hdrained := h.1.exists_quiet hdrained

/-! ## Bounds -/

/-- What a writer has still to do is at most a whole call. -/
theorem Inv.writeWork_le (h : s.Inv) : writeWork s.writePhase ≤ bufferSize + 4 + readCost := by
  have hwriting := h.writing
  rw [Writing] at hwriting
  cases hphase : s.writePhase with
  | idle => exact Nat.zero_le _
  | waiting header o size =>
      simp only [hphase] at hwriting
      obtain ⟨⟨hmessage, -⟩, rfl⟩ := hwriting
      have hfits : DataHeader.headerSize + o.bodySize ≤ bufferSize := hmessage.1
      simp only [writeWork]
      omega
  | copying header o size copied =>
      simp only [hphase] at hwriting
      obtain ⟨⟨hmessage, -⟩, rfl, -⟩ := hwriting
      have hfits : DataHeader.headerSize + o.bodySize ≤ bufferSize := hmessage.1
      simp only [writeWork]
      omega
  | copied header o =>
      simp only [writeWork]
      omega
  | advanced header o slot =>
      simp only [writeWork]
      omega

theorem readWork_le (awaited : Bool) (phase : ReadPhase) :
    readWork awaited phase ≤ bufferSize + 7 := by
  cases phase with
  | idle =>
      simp only [readWork]
      split_ifs <;> omega
  | _ =>
      simp only [readWork]
      omega

/-- What is still to be done is bounded by the size of the ring. -/
theorem Inv.work_le (h : s.Inv) : s.work ≤ (totalAmount + 3) * readCost := by
  have hwrite := h.writeWork_le
  have hread := readWork_le s.awaited s.readPhase
  have htokens := h.writer_tokens
  have hunread : readCost * s.unread.length ≤ readCost * totalAmount :=
    Nat.mul_le_mul_left readCost (by omega)
  rw [work, Nat.add_mul, Nat.mul_comm totalAmount]
  simp only [readCost] at *
  omega

/-- A drained ring has returned everything. -/
theorem Inv.returned_of_drained (h : s.Inv) (hdrained : s.Drained) : s.returned = s.sent := by
  obtain ⟨hwrite, hread, hunread⟩ := hdrained
  have hlength : s.log.length ≤ s.taken := List.drop_eq_nil_iff.mp hunread
  rw [h.returned_eq, sent, hwrite, hread]
  simp only [ReadPhase.decoding, WritePhase.pending, Nat.sub_zero, List.append_nil,
    List.take_of_length_le hlength]

/-- **The ring drains.** From any state that can be reached, in whatever order the two sides take their
steps, after a bounded number of them other than waits that time out there is nothing left to do: as long
as there is, one of the two can go on, also when the writer waits for a slot. Then every message has been
returned, and so has the one that was being written. -/
theorem drains_of_run (memory clientBuffer serverBuffer : Memory UInt8) {actions rest : List RingAction}
    (hrun : runAll step (initial memory clientBuffer serverBuffer) actions = some s)
    (hquiet : Along step Quiet s rest) (hrest : runAll step s rest = some t) :
    rest.countP (fun a => !timesOut a) ≤ (totalAmount + 3) * (bufferSize + 7) ∧
    (t.Drained → t.returned = s.sent) ∧
    (¬ t.Drained → ∃ a u, timesOut a = false ∧ t.Quiet a ∧ t.step a = some u) ∧
    ∃ more u, (∀ a ∈ more, timesOut a = false) ∧ runAll step t more = some u ∧ u.Drained ∧
      u.returned = s.sent := by
  have hinv : s.Inv := runAll_preserves (fun _ _ _ h hstep => h.step hstep)
    (inv_initial memory clientBuffer serverBuffer) hrun
  have hsettles := settles s.sent
  have hkept : t.Inv ∧ t.sent = s.sent :=
    runAll_invariant (fun _ _ _ h hP hstep => hsettles.keeps h hP hstep) ⟨hinv, rfl⟩ hquiet hrest
  have hcount := hsettles.countP_le ⟨hinv, rfl⟩ hquiet hrest
  have hbound : s.work ≤ (totalAmount + 3) * (bufferSize + 7) := hinv.work_le
  obtain ⟨more, u, hidle, hmore, ⟨hinv', hsent⟩, hdrained⟩ := hsettles.exists_done hkept
  refine ⟨by omega, ?_, hkept.1.exists_quiet, more, u, hidle, hmore, hdrained, ?_⟩
  · intro hdone
    rw [hkept.1.returned_of_drained hdone, hkept.2]
  · rw [hinv'.returned_of_drained hdrained, hsent]

/-- A ping is being written when the quiet begins: it is copied, awaited and read. -/
def quietActions : List RingAction :=
  List.replicate 20 RingAction.writer ++ [RingAction.awaitFails, .await, .reader, .read]

/-- The writer has just been called. -/
theorem drains_of_run_ping : ∃ s t,
    runAll step (initial (fun _ => 0) (fun _ => 0) (fun _ => 0)) [.write .ping 7] = some s ∧
    runAll step s quietActions = some t ∧
    (quietActions.countP (fun a => !timesOut a) ≤ (totalAmount + 3) * (bufferSize + 7) ∧
      (t.Drained → t.returned = s.sent) ∧
      (¬ t.Drained → ∃ a u, timesOut a = false ∧ t.Quiet a ∧ t.step a = some u) ∧
      ∃ more u, (∀ a ∈ more, timesOut a = false) ∧ runAll step t more = some u ∧ u.Drained ∧
        u.returned = s.sent) := by
  have hrun : runAll step (initial (fun _ => 0) (fun _ => 0) (fun _ => 0)) [.write .ping 7] =
      some (startWrite (initial (fun _ => 0) (fun _ => 0) (fun _ => 0)) .ping 7) := rfl
  have hsome : (runAll step (startWrite (initial (fun _ => 0) (fun _ => 0) (fun _ => 0)) .ping 7)
      quietActions).isSome = true := by decide +kernel
  obtain ⟨t, hrest⟩ := Option.isSome_iff_exists.mp hsome
  exact ⟨_, t, hrun, hrest, drains_of_run _ _ _ hrun (by decide +kernel) hrest⟩

end RingSystem

end IpcPerformance
