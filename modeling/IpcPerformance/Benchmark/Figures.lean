import IpcPerformance.Benchmark.Readers

/-! # The figures of the readers

What the readers report after a run that returns true, against what has happened in it.

* `RealWorldBenchmark.misses_eq_lost` — the losses reported are the ids that were not processed,
  although the counter is meaningless in between.
* `ThroughputBenchmark.window_iff` — when the throughput is computed from the window and the bytes it
  is meant to be.
* `LatencyBenchmark.exact_iff` — when the latencies are those of the messages. -/

namespace IpcPerformance

open ServerLoop

/-! ## Lost messages -/

namespace RealWorldBenchmark

/-- The ids of the messages that have been processed. -/
def processed (answers : List Answer) : List ℕ := (arrivals answers).map fun a => a.header.id.toNat

/-- The ids of a data set that have not been processed. -/
def lost (data : List DataPoint) (answers : List Answer) : Finset ℕ :=
  (Finset.Icc 1 data.length).filter fun id => id ∉ processed answers

/-- What is lost of a data set and what is processed make up the data set. -/
theorem card_lost {data : List DataPoint} {answers : List Answer}
    (hids : ∀ id ∈ processed answers, 1 ≤ id ∧ id ≤ data.length)
    (hnodup : (processed answers).Nodup) :
    (lost data answers).card + (arrivals answers).length = data.length := by
  have hsub : (processed answers).toFinset ⊆ Finset.Icc 1 data.length := by
    intro id hid
    rw [List.mem_toFinset] at hid
    exact Finset.mem_Icc.mpr (hids id hid)
  have hlost : lost data answers = Finset.Icc 1 data.length \ (processed answers).toFinset := by
    ext id
    simp [lost]
  have hcard := Finset.card_sdiff_add_card_eq_card hsub
  have hlen : (processed answers).length = (arrivals answers).length := List.length_map _
  rw [List.toFinset_card_of_nodup hnodup, Nat.card_Icc, Nat.add_sub_cancel, hlen] at hcard
  rw [hlost]
  exact hcard

/-- A reader that returns true has processed the last id. -/
theorem i_eq_length {data : List DataPoint} {answers : List Answer} {t : ServerState State}
    (hrun : runAll (runServer data).step ((runServer data).start initial) answers = some t)
    (hreturned : t.phase = .returned true)
    (hids : ∀ id ∈ processed answers, 1 ≤ id ∧ id ≤ data.length) :
    t.fields.i.toNat = data.length := by
  have hle : data.length ≤ t.fields.i.toNat := by
    rcases (sound_of_run hrun).returned hreturned with hdone | ⟨retry, hgives⟩
    · exact Nat.not_lt.mp (of_decide_eq_false hdone)
    · cases hgives
  rw [fields_of_run hrun] at hle ⊢
  rcases List.eq_nil_or_concat (arrivals answers) with hnil | ⟨before, a, hconcat⟩
  · rw [hnil] at hle ⊢
    exact (Nat.le_zero.mp hle).symm
  · rw [hconcat, List.concat_eq_append, i_foldl_concat] at hle ⊢
    have hmem : a.header.id.toNat ∈ processed answers := by
      apply List.mem_map_of_mem
      rw [hconcat, List.concat_eq_append]
      exact List.mem_append_right _ (List.mem_singleton.mpr rfl)
    exact le_antisymm (hids _ hmem).2 hle

/-- **The losses add up.** Whatever is lost and in whatever order the rest comes: when the reader
returns true, it reports as many losses as there are ids it has not processed. -/
theorem misses_eq_lost {data : List DataPoint} (hlt : data.length < 2 ^ 32) {answers : List Answer}
    {t : ServerState State}
    (hrun : runAll (runServer data).step ((runServer data).start initial) answers = some t)
    (hreturned : t.phase = .returned true)
    (hids : ∀ id ∈ processed answers, 1 ≤ id ∧ id ≤ data.length)
    (hnodup : (processed answers).Nodup) :
    t.fields.misses.toNat = (lost data answers).card := by
  have hcard := card_lost hids hnodup
  have hi := i_eq_length hrun hreturned hids
  have hsum := misses_foldl data (arrivals answers)
  rw [← fields_of_run hrun] at hsum
  -- no wrap is left in the end: both sides are below the length of the data set
  have hcount : (arrivals answers).length < 2 ^ 32 := lt_of_le_of_lt (by omega) hlt
  have hnat := congrArg UInt32.toNat hsum
  rw [UInt32.toNat_add, UInt32.toNat_ofNat', Nat.mod_eq_of_lt hcount, hi] at hnat
  have hmisses := t.fields.misses.toNat_lt
  omega

/-- A data set of four points. -/
def fourPoints : List DataPoint := List.replicate 4 ⟨0, 0, 0, .ofList []⟩

/-- A message of a data set, with the given id. -/
def messageWithId (id : UInt32) : Answer := .message ⟨⟨id, .javaSymbolLookup, 16, 0⟩, 0, 0⟩ .ping

/-- The third message comes before the first, and the second one never. -/
def reordered : List Answer :=
  [.awaited false, .awaited true, .error .noDataAvailable 0 0, .awaited true, messageWithId 3,
    messageWithId 1, .error .noDataAvailable 0 0, .awaited true, messageWithId 4]

/-- One message of four is lost. -/
theorem misses_eq_lost_reordered :
    runAll (runServer fourPoints).step ((runServer fourPoints).start initial) reordered =
      some ⟨.returned true, ⟨4, 1⟩⟩ ∧
    (1 : UInt32).toNat = (lost fourPoints reordered).card := by
  have hrun : runAll (runServer fourPoints).step ((runServer fourPoints).start initial) reordered =
      some ⟨.returned true, ⟨4, 1⟩⟩ := rfl
  have hids : ∀ id ∈ processed reordered, 1 ≤ id ∧ id ≤ fourPoints.length := by decide
  have hnodup : (processed reordered).Nodup := by decide
  exact ⟨hrun, misses_eq_lost (by decide) hrun rfl hids hnodup⟩

end RealWorldBenchmark

/-! ## Throughput -/

namespace ThroughputBenchmark

/-- The fields belong to the messages: the window is from the timestamp of the first one to the clock
at the last one, their number is right, and so is the number of their bytes. -/
structure FitsWindow (size : UInt32) (messages : List Arrival) (s : State) : Prop where
  start : messages.head?.map (fun a => a.header.timestamp) = some s.startTime
  finish : messages.getLast?.map (fun a => a.after) = some s.endTime
  received : s.received.toNat = messages.length
  bytes : (byteCount size s).toNat = messages.length * size.toNat

/-- The window begins where it is to begin by accident: the second message has the timestamp of the
first, or there is only one, with the timestamp 0. -/
def StartsRight : List Arrival → Prop
  | a :: b :: _ => b.header.timestamp = a.header.timestamp
  | [a] => a.header.timestamp = 0
  | [] => False

instance : (messages : List Arrival) → Decidable (StartsRight messages)
  | a :: b :: _ => inferInstanceAs (Decidable (b.header.timestamp = a.header.timestamp))
  | [a] => inferInstanceAs (Decidable (a.header.timestamp = 0))
  | [] => inferInstanceAs (Decidable False)

/-- The reader never wants more messages than it can count. -/
theorem length_le {iterations : UInt32} {answers : List Answer} {t : ServerState State}
    (hrun : runAll (runServer iterations).step ((runServer iterations).start initial) answers =
      some t) : (arrivals answers).length ≤ iterations.toNat := by
  by_contra hlong
  -- the first message too many would have been wanted
  have hwanted := continues_of_arrivals hrun iterations.toNat (by omega)
  have hcount := counter_foldl State.received (runServer iterations).received (fun _ _ => rfl)
    initial ((arrivals answers).take iterations.toNat)
  rw [List.length_take_of_le (by omega)] at hcount
  have hlt : (0 + UInt32.ofNat iterations.toNat).toNat < iterations.toNat := by
    change decide (_ < iterations) = true at hwanted
    rw [hcount] at hwanted
    exact of_decide_eq_true hwanted
  rw [UInt32.zero_add, UInt32.ofNat_toNat] at hlt
  exact absurd hlt (lt_irrefl _)

/-- The number of messages is right. -/
theorem received_eq {iterations : UInt32} {answers : List Answer} {t : ServerState State}
    (hrun : runAll (runServer iterations).step ((runServer iterations).start initial) answers =
      some t) : t.fields.received.toNat = (arrivals answers).length := by
  have hle := length_le hrun
  have hlt := iterations.toNat_lt
  rw [fields_of_run hrun, counter_foldl State.received (runServer iterations).received
    (fun _ _ => rfl) initial (arrivals answers)]
  change (0 + UInt32.ofNat (arrivals answers).length).toNat = _
  rw [UInt32.zero_add, UInt32.toNat_ofNat', Nat.mod_eq_of_lt (by omega)]

/-- The window ends at the last message. -/
theorem endTime_eq {iterations : UInt32} {answers : List Answer} {t : ServerState State}
    (hrun : runAll (runServer iterations).step ((runServer iterations).start initial) answers =
      some t) (hsome : arrivals answers ≠ []) :
    (arrivals answers).getLast?.map (fun a => a.after) = some t.fields.endTime := by
  obtain ⟨before, a, hconcat⟩ := (List.eq_nil_or_concat (arrivals answers)).resolve_left hsome
  rw [fields_of_run hrun, hconcat, List.concat_eq_append, endTime_foldl_concat, List.getLast?_concat]
  rfl

/-- The window begins at the first message exactly when it does so by accident. -/
theorem startTime_iff {iterations : UInt32} {answers : List Answer} {t : ServerState State}
    (hrun : runAll (runServer iterations).step ((runServer iterations).start initial) answers =
      some t) :
    (arrivals answers).head?.map (fun a => a.header.timestamp) = some t.fields.startTime ↔
      StartsRight (arrivals answers) := by
  have hle := length_le hrun
  have hlt := iterations.toNat_lt
  rw [fields_of_run hrun]
  rcases harrivals : arrivals answers with _ | ⟨a, _ | ⟨b, rest⟩⟩
  · simp [StartsRight]
  · -- one message: the start is still that of a new benchmark
    change some a.header.timestamp = some 0 ↔ a.header.timestamp = 0
    rw [Option.some.injEq]
  · rw [startTime_foldl iterations a b rest (by rw [← harrivals]; omega)]
    change some a.header.timestamp = some b.header.timestamp ↔ b.header.timestamp = a.header.timestamp
    rw [Option.some.injEq, eq_comm]

/-- The product is right exactly when it does not wrap. -/
theorem bytes_iff {iterations : UInt32} {answers : List Answer} {t : ServerState State}
    (hrun : runAll (runServer iterations).step ((runServer iterations).start initial) answers =
      some t) (size : UInt32) :
    (byteCount size t.fields).toNat = (arrivals answers).length * size.toNat ↔
      (arrivals answers).length * size.toNat < 2 ^ 32 := by
  rw [byteCount, UInt32.toNat_mul, received_eq hrun]
  constructor
  · intro h
    rw [← h]
    exact Nat.mod_lt _ (by decide)
  · intro h
    exact Nat.mod_eq_of_lt h

/-- **When the throughput is that of its window**, at any point of a run that has had a message, and
so when it returns true: exactly when the second message has the timestamp of the first, or the only
one the timestamp 0, and the number of bytes is below 2^32. -/
theorem window_iff {iterations : UInt32} (size : UInt32) {answers : List Answer}
    {t : ServerState State}
    (hrun : runAll (runServer iterations).step ((runServer iterations).start initial) answers =
      some t) (hsome : arrivals answers ≠ []) :
    FitsWindow size (arrivals answers) t.fields ↔
      StartsRight (arrivals answers) ∧ (arrivals answers).length * size.toNat < 2 ^ 32 := by
  constructor
  · intro h
    exact ⟨(startTime_iff hrun).mp h.start, (bytes_iff hrun size).mp h.bytes⟩
  · rintro ⟨hstart, hbytes⟩
    exact ⟨(startTime_iff hrun).mpr hstart, endTime_eq hrun hsome, received_eq hrun,
      (bytes_iff hrun size).mpr hbytes⟩

/-- A message of a body of the given timestamp, read at some time. -/
def messageAt (timestamp after : Int64) : Answer :=
  .message ⟨⟨1, .binaryData, 4, timestamp⟩, 0, after⟩ .ping

/-- Two messages with the timestamps 10 and 20, read at 30 and 40. -/
def twoMessages : List Answer := [.awaited true, messageAt 10 30, messageAt 20 40]

/-- After them the window is from 20 to 40. -/
theorem run_twoMessages :
    runAll (runServer 2).step ((runServer 2).start initial) twoMessages =
      some ⟨.returned true, ⟨20, 40, 2⟩⟩ := rfl

/-- The window does not begin at the first message. -/
theorem window_iff_twoMessages :
    FitsWindow 4 (arrivals twoMessages) ⟨20, 40, 2⟩ ↔
      StartsRight (arrivals twoMessages) ∧ (arrivals twoMessages).length * (4 : UInt32).toNat < 2 ^ 32 :=
  window_iff 4 run_twoMessages (List.cons_ne_nil _ _)

/-- A run that returns true with a window that is too short. -/
theorem not_fitsWindow_twoMessages :
    ¬ ∀ (iterations size : UInt32) (answers : List Answer) (t : ServerState State),
      runAll (runServer iterations).step ((runServer iterations).start initial) answers = some t →
      t.phase = .returned true → arrivals answers ≠ [] →
      FitsWindow size (arrivals answers) t.fields := by
  intro h
  have hfits := h 2 4 twoMessages _ run_twoMessages rfl (List.cons_ne_nil _ _)
  exact absurd hfits.start (by decide)

end ThroughputBenchmark

/-! ## Latencies -/

namespace LatencyBenchmark

/-- Every message has its latency, as the integer it is. -/
def Exact (iterations : UInt32) (messages : List Arrival) (s : State) : Prop :=
  s.latencies.length = iterations.toNat ∧
    s.latencies.map (fun latency => (latency.toNat : ℤ)) =
      messages.map fun a => a.after.toInt - a.header.timestamp.toInt

/-- A difference that is not negative is stored as it is exactly when it is below 2^32. -/
theorem toUnsignedInt_eq_iff {a b : Int64} (h : b.toInt ≤ a.toInt) :
    ((toUnsignedInt (a - b)).toNat : ℤ) = a.toInt - b.toInt ↔ a.toInt - b.toInt < 2 ^ 32 := by
  rw [toNat_toUnsignedInt_sub]
  omega

/-- A reader that returns true has a latency for every iteration. -/
theorem length_latencies {iterations : UInt32} {answers : List Answer} {t : ServerState State}
    (hrun : runAll (runServer iterations).step ((runServer iterations).start initial) answers =
      some t) (hreturned : t.phase = .returned true) :
    (arrivals answers).length = iterations.toNat := by
  have hdone : (runServer iterations).continues t.fields = false := by
    rcases (sound_of_run hrun).returned hreturned with hdone | ⟨retry, hgives⟩
    · exact hdone
    · cases hgives
  exact length_arrivals_of_counted State.i (fun _ => rfl) (fun _ _ => rfl) rfl hrun hdone

/-- **When the latencies are exact**: exactly when every message is read less than 2^32 nanoseconds
after its timestamp. -/
theorem exact_iff {iterations : UInt32} {answers : List Answer} {t : ServerState State}
    (hrun : runAll (runServer iterations).step ((runServer iterations).start initial) answers =
      some t) (hreturned : t.phase = .returned true)
    (hclock : ∀ a ∈ arrivals answers, a.header.timestamp.toInt ≤ a.after.toInt) :
    Exact iterations (arrivals answers) t.fields ↔
      ∀ a ∈ arrivals answers, a.after.toInt - a.header.timestamp.toInt < 2 ^ 32 := by
  have hlength := length_latencies hrun hreturned
  have hlatencies : t.fields.latencies =
      (arrivals answers).map fun a => toUnsignedInt (a.after - a.header.timestamp) := by
    rw [fields_of_run hrun, latencies_foldl]
    rfl
  rw [Exact, hlatencies, List.length_map, List.map_map, and_iff_right hlength, List.map_inj_left]
  -- message by message
  apply forall_congr'
  intro a
  apply imp_congr_right
  intro ha
  exact toUnsignedInt_eq_iff (hclock a ha)

/-- A message with the timestamp 7 that is read at some time. -/
def messageReadAt (after : Int64) : Answer := .message ⟨⟨1, .ping, 0, 7⟩, 0, after⟩ .ping

/-- A message that waits for 2^32 nanoseconds, which are about four seconds. -/
def lateMessage : List Answer := [.awaited true, messageReadAt 4294967303]

/-- Its latency is reported as zero. -/
theorem run_lateMessage :
    runAll (runServer 1).step ((runServer 1).start initial) lateMessage =
      some ⟨.returned true, ⟨2, [0]⟩⟩ := rfl

/-- The latency is not exact, since the message has waited too long. -/
theorem exact_iff_lateMessage :
    Exact 1 (arrivals lateMessage) ⟨2, [0]⟩ ↔
      ∀ a ∈ arrivals lateMessage, a.after.toInt - a.header.timestamp.toInt < 2 ^ 32 :=
  exact_iff run_lateMessage rfl (by decide)

/-- A run that returns true with a latency that is wrong. -/
theorem not_exact_lateMessage :
    ¬ ∀ (iterations : UInt32) (answers : List Answer) (t : ServerState State),
      runAll (runServer iterations).step ((runServer iterations).start initial) answers = some t →
      t.phase = .returned true →
      (∀ a ∈ arrivals answers, a.header.timestamp.toInt ≤ a.after.toInt) →
      Exact iterations (arrivals answers) t.fields := by
  intro h
  have hexact := h 1 lateMessage _ run_lateMessage rfl (by decide)
  exact absurd hexact.2 (by decide)

end LatencyBenchmark

end IpcPerformance
