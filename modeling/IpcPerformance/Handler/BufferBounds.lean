import IpcPerformance.Handler.Fifo
import IpcPerformance.Handler.StreamSocket

/-! # Bounds of the stream readers

`StreamSocket::read` and `Fifo::read` receive the body of a message into `buffer_`, and ask for as
many bytes as the header says. The header comes from the peer and nothing compares its body size with
`BUFFER_SIZE`, so the kernel is handed windows past the end of the buffer: a read keeps to the buffer
exactly when the next header does not announce more than the buffer holds.

* `StreamSocket.contained_iff`, `Fifo.contained_iff` — one read.
* `reads_contained_iff` — every read of a run. -/

namespace IpcPerformance

/-- A read that keeps to the buffer: all windows lie inside it, and a frame whose body would not fit
is refused with an error. -/
def ReadCall.Contained (call : ReadCall) (header : Option DataHeader) : Prop :=
  (∀ c ∈ call.calls, c.Inside) ∧
    ∀ h, header = some h → bufferSize < h.bodySize.toNat → ∃ e, call.outcome = .ok (.error e)

/-- A header that announces no more than the buffer holds. -/
def HeaderFits (header : Option DataHeader) : Prop :=
  ∀ h, header = some h → h.bodySize.toNat ≤ bufferSize

/-- A read keeps to the buffer if the header fits, its own windows do, and that of the body is
handed out. -/
theorem contained_iff_of_calls {call : ReadCall} {header : Option DataHeader}
    (hcalls : ∀ c ∈ call.calls, c.start + c.length ≤ DataHeader.headerSize ∨
      ∃ h, header = some h ∧ c.start + c.length = h.bodySize.toNat)
    (hbody : ∀ h, header = some h → 0 < h.bodySize.toNat → ⟨0, h.bodySize.toNat⟩ ∈ call.calls) :
    call.Contained header ↔ HeaderFits header := by
  constructor
  · rintro ⟨hinside, -⟩ h hheader
    rcases Nat.eq_zero_or_pos h.bodySize.toNat with hzero | hpos
    · rw [hzero]
      exact Nat.zero_le _
    · have := hinside _ (hbody h hheader hpos)
      rwa [RecvCall.Inside, Nat.zero_add] at this
  · intro hfits
    refine ⟨fun c hc => ?_, fun h hheader hlt => absurd hlt (Nat.not_lt.mpr (hfits h hheader))⟩
    rcases hcalls c hc with hle | ⟨h, hheader, heq⟩
    · exact hle.trans (by decide)
    · exact heq.le.trans (hfits h hheader)

/-! ## Stream sockets -/

namespace StreamSocket

/-- The header the next read will decode: the first bytes of the stream, when all of them arrive and
the first is there. -/
def nextHeader (s : StreamSocket × ByteStream) : Option DataHeader :=
  if s.1.cfd ≠ -1 ∧ s.2.waits = false ∧ DataHeader.headerSize ≤ s.2.arriving.length then
    some (.ofImage (s.2.arriving.take DataHeader.headerSize))
  else none

/-- Without a header to decode, only the header loop asks for bytes. -/
theorem calls_read_of_none {s : StreamSocket × ByteStream} (h : nextHeader s = none)
    {call : RecvCall} (hcall : call ∈ (s.1.read s.2).calls) :
    call.start + call.length = DataHeader.headerSize := by
  by_cases hopen : s.1.cfd = -1
  · simp [read, hopen] at hcall
  · have hhead : call ∈
        (recvLoop DataHeader.headerSize headerAgain s.1.buffer 0 s.2).calls := by
      rw [read, if_neg hopen] at hcall
      rcases houtcome : (recvLoop DataHeader.headerSize headerAgain s.1.buffer 0 s.2).outcome with
        fault | (_ | e)
      · simpa [houtcome] using hcall
      · -- the loop has run to its end, so there was a header
        obtain ⟨hle, hwait⟩ := le_of_recvLoop _ _ _ _ _ (by decide) houtcome
        have hwaits : s.2.waits = false := by
          rw [← Bool.not_eq_true, ← ByteStream.exists_recv_eq_again]
          rintro ⟨next, hagain⟩
          exact (hwait.resolve_left (by decide)) next hagain
        rw [nextHeader, if_pos ⟨hopen, hwaits, hle⟩] at h
        cases h
      · simpa [houtcome] using hcall
    exact add_eq_of_mem_calls _ _ _ _ _ (Nat.zero_le _) hhead

/-- With a header to decode, the read goes on with its body. -/
theorem read_of_nextHeader {s : StreamSocket × ByteStream} {header : DataHeader}
    (h : nextHeader s = some header) :
    ∃ buffer mid calls, s.1.read s.2 = (readBody header buffer mid).after calls ∧
      ∀ call ∈ calls, call.start + call.length = DataHeader.headerSize := by
  rw [nextHeader] at h
  split at h
  · rename_i hcond
    cases h
    have hno : ∀ next, s.2.recv DataHeader.headerSize ≠ (.again, next) := by
      intro next hagain
      have hwaits := ByteStream.exists_recv_eq_again.mp ⟨next, hagain⟩
      rw [hcond.2.1] at hwaits
      cases hwaits
    obtain ⟨buffer, mid, calls, hread, -, -, -, -, hcalls⟩ := read_of_header hcond.1 hno hcond.2.2
    exact ⟨buffer, mid, calls, hread, hcalls⟩
  · cases h

/-- A read of a stream socket keeps to the buffer exactly when the header it decodes fits. -/
theorem contained_iff (s : StreamSocket × ByteStream) :
    (s.1.read s.2).Contained (nextHeader s) ↔ HeaderFits (nextHeader s) := by
  apply contained_iff_of_calls
  · intro call hcall
    cases hnext : nextHeader s with
    | none => exact .inl (calls_read_of_none hnext hcall).le
    | some header =>
        obtain ⟨buffer, mid, calls, hread, hcalls⟩ := read_of_nextHeader hnext
        rw [hread] at hcall
        rcases List.mem_append.mp hcall with hcall | hcall
        · exact .inl (hcalls call hcall).le
        · exact .inr ⟨header, rfl, add_eq_of_mem_calls_readBody header buffer mid hcall⟩
  · intro header hheader hpos
    obtain ⟨buffer, mid, calls, hread, -⟩ := read_of_nextHeader hheader
    rw [hread]
    exact List.mem_append_right _ (mem_calls_readBody hpos buffer mid)

end StreamSocket

/-! ## Fifo pipes -/

namespace Fifo

/-- The header the next read will decode: the first bytes of the pipe, when a single read returns
all of it. -/
def nextHeader (s : Fifo × ByteStream) : Option DataHeader :=
  match s.2.events with
  | .segment b bs :: _ =>
      if s.1.fd ≠ -1 ∧ DataHeader.headerSize ≤ (b :: bs).length then
        some (.ofImage ((b :: bs).take DataHeader.headerSize))
      else none
  | _ => none

/-- **What a read of a fifo does**: with a header to decode it goes on with its body, without one it
asks for the header only. -/
theorem read_cases (s : Fifo × ByteStream) :
    (∃ header buffer mid, nextHeader s = some header ∧
      s.1.read s.2 = (readBody header buffer mid).after [⟨0, DataHeader.headerSize⟩]) ∨
    (nextHeader s = none ∧ ∀ call ∈ (s.1.read s.2).calls, call = ⟨0, DataHeader.headerSize⟩) := by
  obtain ⟨fifo, ⟨events, closed⟩⟩ := s
  by_cases hopen : fifo.fd = -1
  · refine .inr ⟨?_, by simp [read, hopen]⟩
    rcases events with _ | ⟨_ | _ | ⟨b, bs⟩, events⟩
    · rfl
    · rfl
    · rfl
    · exact if_neg fun h => h.1 hopen
  · have hread : pipeRead ⟨events, closed⟩ DataHeader.headerSize =
        ByteStream.recv ⟨events, closed⟩ DataHeader.headerSize := if_neg (by decide)
    rcases events with _ | ⟨_ | _ | ⟨b, bs⟩, events⟩
    · -- without a segment there is no header
      refine .inr ⟨rfl, ?_⟩
      cases closed <;> simp [read, hopen, hread, ByteStream.recv]
    · exact .inr ⟨rfl, by simp [read, hopen, hread, ByteStream.recv]⟩
    · exact .inr ⟨rfl, by simp [read, hopen, hread, ByteStream.recv]⟩
    · by_cases hlen : DataHeader.headerSize ≤ (b :: bs).length
      · -- the segment holds the whole header
        exact .inl ⟨_, _, _, if_pos ⟨hopen, hlen⟩, read_of_segment hopen events closed hlen⟩
      · -- the segment is too short: the assertion fails
        have htake : ((b :: bs).take DataHeader.headerSize).length ≠ DataHeader.headerSize := by
          rw [List.length_take]
          omega
        refine .inr ⟨if_neg fun h => hlen h.2, ?_⟩
        simp only [read, if_neg hopen, hread, ByteStream.recv, if_neg htake]
        split <;> simp

/-- A read of a fifo keeps to the buffer exactly when the header it decodes fits. -/
theorem contained_iff (s : Fifo × ByteStream) :
    (s.1.read s.2).Contained (nextHeader s) ↔ HeaderFits (nextHeader s) := by
  apply contained_iff_of_calls
  · intro call hcall
    rcases read_cases s with ⟨header, buffer, mid, hnext, hread⟩ | ⟨-, hcalls⟩
    · rw [hread, ReadCall.after, calls_readBody] at hcall
      rcases List.mem_cons.mp hcall with rfl | hcall
      · exact .inl le_rfl
      · cases List.mem_singleton.mp hcall
        exact .inr ⟨header, hnext, Nat.zero_add _⟩
    · rw [hcalls call hcall]
      exact .inl le_rfl
  · intro header hheader _
    rcases read_cases s with ⟨header', buffer, mid, hnext, hread⟩ | ⟨hnone, -⟩
    · cases hheader.symm.trans hnext
      rw [hread, ReadCall.after, calls_readBody]
      exact List.mem_append_right _ (List.mem_singleton_self _)
    · rw [hnone] at hheader
      cases hheader

end Fifo

/-! ## Runs -/

/-- **The stream readers trust the body size.** In a run of reads all keep to the buffer exactly when
none of the headers decoded on the way announces a body larger than the buffer. -/
theorem reads_contained_iff (sockets : StreamSocket × ByteStream) (pipes : Fifo × ByteStream)
    (n : ℕ) :
    ((∀ k < n, ∀ results t, StreamSocket.readStep.run k sockets = .ok (results, t) →
        (t.1.read t.2).Contained (StreamSocket.nextHeader t)) ↔
      ∀ k < n, ∀ results t, StreamSocket.readStep.run k sockets = .ok (results, t) →
        HeaderFits (StreamSocket.nextHeader t)) ∧
    ((∀ k < n, ∀ results t, Fifo.readStep.run k pipes = .ok (results, t) →
        (t.1.read t.2).Contained (Fifo.nextHeader t)) ↔
      ∀ k < n, ∀ results t, Fifo.readStep.run k pipes = .ok (results, t) →
        HeaderFits (Fifo.nextHeader t)) := by
  constructor
  · simp only [StreamSocket.contained_iff]
  · simp only [Fifo.contained_iff]

/-- A header that announces 65535 bytes. -/
def hugeHeader : DataHeader := ⟨1, .binaryData, 65535, 0⟩

/-- A peer that sends nothing but this header: both readers hand out a window of 65535 bytes. -/
theorem not_contained_hugeHeader :
    ¬ (StreamSocket.read ⟨true, true, 3, 4, 0, fun _ => 0⟩
        ⟨StreamEvent.push hugeHeader.image [], true⟩).Contained (some hugeHeader) ∧
    ¬ (Fifo.read ⟨3, 0, fun _ => 0⟩
        ⟨StreamEvent.push hugeHeader.image [], true⟩).Contained (some hugeHeader) := by
  have hstream : StreamSocket.nextHeader (⟨true, true, 3, 4, 0, fun _ => 0⟩,
      ⟨StreamEvent.push hugeHeader.image [], true⟩) = some hugeHeader := by decide +kernel
  have hfifo : Fifo.nextHeader (⟨3, 0, fun _ => 0⟩,
      ⟨StreamEvent.push hugeHeader.image [], true⟩) = some hugeHeader := by decide +kernel
  constructor
  · intro h
    rw [← hstream] at h
    exact absurd ((StreamSocket.contained_iff _).mp h _ hstream) (by decide)
  · intro h
    rw [← hfifo] at h
    exact absurd ((Fifo.contained_iff _).mp h _ hfifo) (by decide)

end IpcPerformance
