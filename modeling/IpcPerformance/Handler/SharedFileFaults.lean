import IpcPerformance.Handler.SharedFile
import IpcPerformance.Library.Runs

/-! # Shared files when operations fail

One writer and one reader on a file, for every choice of which operations of their calls succeed.

* `SharedFile.write_cases`, `SharedFile.read_cases` — what a call can do when the flush and the posts
  it comes to succeed.
* `FileSystem.sound_of_clean` — along such calls a failed call leaves the cursor and the counts as
  they were, and the reader returns the messages written.
* `FileSystem.not_sound_unflushed` — a failed flush is reported as a success, and the reader returns
  an earlier message again. -/

namespace IpcPerformance

/-- The flush and the posts of a write that come to be done succeed. -/
def WriteFate.Clean (fate : WriteFate) : Prop :=
  fate.seekp = true → fate.wait = true →
    (fate.write = true → fate.flush = true ∧ fate.postReader = true) ∧
    (fate.write = false → fate.postWriter = true)

/-- The post of a read whose transfer has failed succeeds. -/
def ReadFate.Clean (fate : ReadFate) : Prop :=
  fate.tryWait = true → fate.seekg = false ∨ fate.read = false → fate.postReader = true

namespace SharedFile

/-- **What a write can do**: fail and leave the cursor and the file with its counts, or fill its slot. -/
theorem write_cases {self : RingHandler} (hopen : self.isOpen = true) {segment : Segment FileContents}
    {o : DataObject} {timestamp : Int64} {fate : WriteFate} (hclean : o.Fits → fate.Clean)
    {result : Bool} {self' : RingHandler} {segment' : Segment FileContents}
    (h : write self segment o timestamp fate = some (result, self', segment')) :
    (result = false ∧ self'.isOpen = true ∧ self'.offset = self.offset ∧ segment' = segment) ∨
    (result = true ∧ o.Fits ∧ self'.isOpen = true ∧
      self'.offset = (self.offset + 1) % totalAmount ∧
      ∃ writer, segment.writer = writer + 1 ∧
        segment' = ⟨segment.store.write (self.offset * bufferSize)
          (imageOf (self.nextMessage o timestamp)), segment.reader + 1, writer⟩) := by
  by_cases hfits : o.Fits
  · obtain ⟨buffer, hassemble, hread⟩ := assemble_of_le self.buffer self.lastId o timestamp hfits
    have hcells : buffer.read 0 (DataHeader.headerSize + o.bodySize) =
        imageOf (self.nextMessage o timestamp) := hread
    rw [write, if_pos hopen, hassemble] at h
    simp only [hcells] at h
    -- where the call ends: the cases follow the order of the operations
    cases hseekp : fate.seekp with
    | false =>
        left
        simp only [hseekp, Bool.not_false, if_true] at h
        cases h
        exact ⟨rfl, hopen, rfl, rfl⟩
    | true =>
        cases hwait : fate.wait with
        | false =>
            left
            simp only [hseekp, hwait, Bool.not_true, Bool.not_false, Bool.false_eq_true, if_false,
              if_true] at h
            cases h
            exact ⟨rfl, hopen, rfl, rfl⟩
        | true =>
            obtain ⟨store, reader, writer⟩ := segment
            obtain ⟨hwritten, hfailed⟩ := hclean hfits hseekp hwait
            simp only [hseekp, hwait, Bool.not_true, Bool.false_eq_true, if_false] at h
            cases writer with
            | zero => cases h
            | succ writer =>
                cases hwrite : fate.write with
                | false =>
                    -- the token taken is put back
                    left
                    simp only [hwrite, hfailed hwrite, semPost, Bool.not_false, if_true] at h
                    cases h
                    exact ⟨rfl, hopen, rfl, rfl⟩
                | true =>
                    right
                    obtain ⟨hflush, hpost⟩ := hwritten hwrite
                    simp only [hwrite, hflush, hpost, semPost, Bool.not_true, Bool.false_eq_true,
                      if_false, if_true] at h
                    cases h
                    exact ⟨rfl, hfits, hopen, rfl, writer, rfl, rfl⟩
  · left
    rw [write, if_pos hopen, assemble_of_lt self.buffer self.lastId o timestamp hfits] at h
    cases h
    exact ⟨rfl, hopen, rfl, rfl⟩

/-- **What a read can do**: end without a message and leave the cursor and the file with its counts, or
empty its slot. Whether the slot is given back to the writer is open. -/
theorem read_cases {self : RingHandler} (hopen : self.isOpen = true)
    {segment : Segment FileContents} {fate : ReadFate} (hclean : 0 < segment.reader → fate.Clean)
    {result : Except Fault ReadResult} {self' : RingHandler} {segment' : Segment FileContents}
    (h : read self segment fate = (result, self', segment')) :
    (answer result = [] ∧ self'.isOpen = true ∧ self'.offset = self.offset ∧ segment' = segment) ∨
    (∃ buffer reader, segment.reader = reader + 1 ∧
      buffer = self.buffer.write 0 (segment.store.read (self.offset * bufferSize) bufferSize) ∧
      result = slotOutcome buffer ∧ self'.isOpen = true ∧
      self'.offset = (self.offset + 1) % totalAmount ∧
      ∃ writer ≤ segment.writer + 1, segment' = ⟨segment.store, reader, writer⟩) := by
  obtain ⟨store, reader, writer⟩ := segment
  rw [read, if_pos hopen] at h
  -- where the call ends
  cases htryWait : fate.tryWait with
  | false =>
      left
      simp only [htryWait, Bool.not_false, if_true] at h
      cases h
      exact ⟨rfl, hopen, rfl, rfl⟩
  | true =>
      simp only [htryWait, Bool.not_true, Bool.false_eq_true, if_false] at h
      cases reader with
      | zero =>
          left
          cases h
          exact ⟨rfl, hopen, rfl, rfl⟩
      | succ reader =>
          have hpost := hclean (Nat.succ_pos reader) htryWait
          cases hseekg : fate.seekg with
          | false =>
              -- the token taken is put back
              left
              simp only [hseekg, hpost (.inl hseekg), semPost, Bool.not_false, if_true] at h
              cases h
              exact ⟨rfl, hopen, rfl, rfl⟩
          | true =>
              cases hread : fate.read with
              | false =>
                  left
                  simp only [hseekg, hread, hpost (.inr hread), semPost, Bool.not_true,
                    Bool.not_false, Bool.false_eq_true, if_false, if_true] at h
                  cases h
                  exact ⟨rfl, hopen, rfl, rfl⟩
              | true =>
                  right
                  simp only [hseekg, hread, Bool.not_true, Bool.false_eq_true, if_false] at h
                  rw [Prod.mk.injEq, Prod.mk.injEq] at h
                  obtain ⟨rfl, rfl, rfl⟩ := h
                  exact ⟨_, reader, rfl, rfl, rfl, hopen, rfl, _, semPost_le _ _, rfl⟩

end SharedFile

/-! ## Runs of calls -/

/-- One writer and one reader on a file. -/
structure FileSystem where
  /-- What they share. -/
  segment : Segment FileContents
  /-- The handler of the writer. -/
  client : RingHandler
  /-- The handler of the reader. -/
  server : RingHandler
  /-- The messages whose write has returned true, in order. -/
  written : List (DataHeader × DataObject)
  /-- The results of the reads that have to do with a message, in order. -/
  results : List (Except Fault ReadResult)

/-- A call, and which of its operations succeed. -/
inductive FileAction
  | write (o : DataObject) (timestamp : Int64) (fate : WriteFate)
  | read (fate : ReadFate)

namespace FileSystem

/-- One call; a call that blocks is no step. -/
def step (s : FileSystem) : FileAction → Option FileSystem
  | .write o timestamp fate =>
      match SharedFile.write s.client s.segment o timestamp fate with
      | none => none
      | some (result, client, segment) =>
          let written :=
            if result then s.written ++ [s.client.nextMessage o timestamp] else s.written
          some { s with segment, client, written }
  | .read fate =>
      let (result, server, segment) := SharedFile.read s.server s.segment fate
      some { s with segment, server, results := s.results ++ answer result }

/-- Both handlers have been opened, on a new file. -/
def initial : FileSystem where
  segment := ⟨.empty, 0, totalAmount⟩
  client := ⟨true, 0, 0, fun _ => 0⟩
  server := ⟨true, 0, 0, fun _ => 0⟩
  written := []
  results := []

/-- Every flush and every post that is done, and on which the other side depends, succeeds. A write of an
object that does not fit does none, nor does a read of an empty ring. -/
def Clean (s : FileSystem) : FileAction → Prop
  | .write o _ fate => o.Fits → fate.Clean
  | .read fate => 0 < s.segment.reader → fate.Clean

/-- If the call fails it leaves the cursor of its handler and both counts as they were. -/
def Restores (s : FileSystem) : FileAction → Prop
  | .write o timestamp fate => ∀ client segment,
      SharedFile.write s.client s.segment o timestamp fate = some (false, client, segment) →
      client.offset = s.client.offset ∧ segment.reader = s.segment.reader ∧
        segment.writer = s.segment.writer
  | .read fate => ∀ server segment,
      SharedFile.read s.server s.segment fate = (.ok (.error .readError), server, segment) →
      server.offset = s.server.offset ∧ segment.reader = s.segment.reader ∧
        segment.writer = s.segment.writer

/-- The reader returns the messages whose write has returned true, in order and once each. -/
def AllReturned (s : FileSystem) : Prop :=
  SharedFile.calls.AllReturned s.server s.segment s.results s.written

/-- Between calls: the ring holds the messages that have not been returned yet. -/
structure Inv (s : FileSystem) : Prop where
  /-- The writer is open. -/
  client_open : s.client.isOpen = true
  /-- The reader is open. -/
  server_open : s.server.isOpen = true
  /-- The messages in the ring. -/
  ring : ∃ items, RingState totalAmount (SharedFile.calls.holds s.segment.store) s.server.offset
      s.client.offset s.segment.reader s.segment.writer items ∧
    s.results ++ items.map (fun m => .ok (.ok m)) = s.written.map fun m => .ok (.ok m)

theorem inv_initial : Inv initial where
  client_open := rfl
  server_open := rfl
  ring := ⟨[], RingState.empty (by decide) le_rfl, rfl⟩

/-- What a call of a run reads is the next message in the ring, or nothing. -/
theorem Inv.read_cases {s : FileSystem} (h : s.Inv) {fate : ReadFate} (hclean : s.Clean (.read fate))
    {result : Except Fault ReadResult} {server : RingHandler} {segment : Segment FileContents}
    (hread : SharedFile.read s.server s.segment fate = (result, server, segment)) :
    (answer result = [] ∧ server.isOpen = true ∧ server.offset = s.server.offset ∧
      segment = s.segment) ∨
    (∃ m, result = .ok (.ok m) ∧ Inv { s with
      segment, server, results := s.results ++ [.ok (.ok m)] }) := by
  rcases SharedFile.read_cases h.server_open hclean hread with
    hfailed | ⟨buffer, reader, hcount, hbuffer, hresult, hopen, hoffset, writer, hwriter, hsegment⟩
  · exact .inl hfailed
  · right
    obtain ⟨items, hring, hitems⟩ := h.ring
    rw [hcount] at hring
    obtain ⟨m, rest, rfl, hholds⟩ := hring.exists_cons
    -- the slot holds a message, so its decoding cannot fail
    have hloaded : slotOutcome buffer = .ok (.ok m) := by
      rw [hbuffer]
      exact slotOutcome_of_loaded hholds.1 (hholds.loaded _)
    refine ⟨m, hresult.trans hloaded, h.client_open, hopen, rest, ?_, ?_⟩
    · rw [hsegment]
      change RingState _ _ server.offset _ _ _ _
      rw [hoffset]
      exact hring.pop hwriter
    · rw [← hitems, List.append_assoc]
      rfl

/-- A call keeps the invariant if its flush and its posts succeed. -/
theorem Inv.step {s s' : FileSystem} (h : s.Inv) {a : FileAction} (hclean : s.Clean a)
    (hstep : s.step a = some s') : s'.Inv := by
  cases a with
  | write o timestamp fate =>
      rw [FileSystem.step] at hstep
      cases hwrite : SharedFile.write s.client s.segment o timestamp fate with
      | none =>
          rw [hwrite] at hstep
          cases hstep
      | some call =>
          obtain ⟨result, client, segment⟩ := call
          rw [hwrite] at hstep
          cases hstep
          obtain ⟨items, hring, hitems⟩ := h.ring
          rcases SharedFile.write_cases h.client_open hclean hwrite with
            ⟨rfl, hopen, hoffset, rfl⟩ | ⟨rfl, hfits, hopen, hoffset, writer, hcount, rfl⟩
          · -- a failed write
            refine ⟨hopen, h.server_open, items, ?_, hitems⟩
            change RingState _ _ _ client.offset _ _ _
            rw [hoffset]
            exact hring
          · -- the message is in the file: its flush has succeeded
            refine ⟨hopen, h.server_open, items ++ [s.client.nextMessage o timestamp], ?_, ?_⟩
            · have hm := s.client.isMessage_nextMessage hfits timestamp
              change RingState _ _ _ client.offset _ _ _
              rw [hoffset]
              rw [hcount] at hring
              exact hring.push (fun i m hne hholds => hholds.write_of_ne hne hm.length_le)
                (SharedFile.holds_write _ _ hm)
            · simp only [if_true, List.map_append, ← hitems, List.append_assoc, List.map_cons,
                List.map_nil]
  | read fate =>
      rw [FileSystem.step] at hstep
      cases hread : SharedFile.read s.server s.segment fate with
      | mk result rest =>
          obtain ⟨server, segment⟩ := rest
          rw [hread] at hstep
          cases hstep
          rcases h.read_cases hclean hread with ⟨hnone, hopen, hoffset, rfl⟩ | ⟨m, rfl, hinv⟩
          · obtain ⟨items, hring, hitems⟩ := h.ring
            refine ⟨h.client_open, hopen, items, ?_, ?_⟩
            · change RingState _ _ server.offset _ _ _ _
              rw [hoffset]
              exact hring
            · simp only [hnone, List.append_nil]
              exact hitems
          · exact hinv

/-- A call that fails restores the counts if its posts succeed. -/
theorem Inv.restores {s : FileSystem} (h : s.Inv) {a : FileAction} (hclean : s.Clean a) :
    s.Restores a := by
  cases a with
  | write o timestamp fate =>
      intro client segment hwrite
      rcases SharedFile.write_cases h.client_open hclean hwrite with
        ⟨-, -, hoffset, rfl⟩ | ⟨htrue, -⟩
      · exact ⟨hoffset, rfl, rfl⟩
      · cases htrue
  | read fate =>
      intro server segment hread
      rcases h.read_cases hclean hread with ⟨-, -, hoffset, rfl⟩ | ⟨m, hresult, -⟩
      · exact ⟨hoffset, rfl, rfl⟩
      · cases hresult

/-- **Failures are harmless as long as the flushes and posts succeed.** After any run of such calls
the reader has returned and will return the messages whose write has returned true, and a further call
that fails leaves the cursor and the counts as they are. -/
theorem sound_of_clean {actions : List FileAction} {s : FileSystem}
    (hclean : Along step Clean initial actions) (hrun : runAll step initial actions = some s) :
    s.AllReturned ∧ ∀ a : FileAction, s.Clean a → s.Restores a := by
  have hinv : s.Inv := runAll_invariant (fun _ _ _ h hclean hstep => h.step hclean hstep)
    inv_initial hclean hrun
  constructor
  · obtain ⟨items, hring, hitems⟩ := hinv.ring
    exact SharedFile.calls.allReturned_of_ringState hinv.server_open hring hitems
  · intro a ha
    exact hinv.restores ha

/-- A write fails in the transfer and is repeated, and a read fails in `seekg` and is repeated. -/
def failingActions : List FileAction :=
  [.write .ping 7 { WriteFate.success with write := false }, .write .ping 8 .success,
    .read { ReadFate.success with seekg := false }, .read .success]

/-- The ping that was written at last is returned. -/
theorem sound_of_clean_failing : ∃ s, runAll step initial failingActions = some s ∧
    s.AllReturned ∧ ∀ a : FileAction, s.Clean a → s.Restores a := by
  have hclean : Along step Clean initial failingActions := by
    simp [failingActions, Along, Clean, WriteFate.Clean, ReadFate.Clean, WriteFate.success,
      ReadFate.success]
  exact ⟨_, rfl, sound_of_clean hclean rfl⟩

/-- A ping is written and read, and a second one is written without reaching the file. -/
def unflushedActions : List FileAction :=
  [.write .ping 7 .success, .read .success, .write .ping 8 { WriteFate.success with flush := false },
    .read .success]

/-- The second read finds the end of the file, and returns the first ping again. -/
theorem not_sound_unflushed : ¬ ∀ (actions : List FileAction) (s : FileSystem),
    runAll step initial actions = some s → s.AllReturned ∧ ∀ a : FileAction, s.Restores a := by
  intro h
  have htimes := congrArg resultTimes (h unflushedActions _ rfl).1
  exact absurd htimes (by decide +kernel)

end FileSystem

end IpcPerformance
