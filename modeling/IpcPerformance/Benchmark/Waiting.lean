import IpcPerformance.Benchmark.Figures

/-! # When the readers stop waiting

Messages may be lost, and at some point nothing comes any more. Three of the readers have no bound on
the wait for the next message.

* `LossyReader.returns_iff_complete` — they return exactly when what they count to has been delivered.
* `ThroughputBenchmark.bounded_wait` — the fourth one returns as soon as it has had a message and ten
  seconds without another, and it counts what it has had. -/

namespace IpcPerformance

open ServerLoop

/-! ## Readers that count -/

/-- When a real-world reader is done: it has processed an id that is past its data. -/
theorem RealWorldBenchmark.done_iff {data : List DataPoint} {answers : List Answer}
    {t : ServerState State}
    (hrun : runAll (runServer data).step ((runServer data).start initial) answers = some t)
    (hsome : arrivals answers ≠ []) :
    (runServer data).continues t.fields = false ↔
      ∃ a ∈ arrivals answers, data.length ≤ a.header.id.toNat := by
  obtain ⟨before, last, hconcat⟩ := (List.eq_nil_or_concat (arrivals answers)).resolve_left hsome
  rw [List.concat_eq_append] at hconcat
  have hi : t.fields.i = last.header.id := by
    rw [fields_of_run hrun, hconcat, i_foldl_concat]
  have hdone : (runServer data).continues t.fields = false ↔ data.length ≤ last.header.id.toNat := by
    rw [← hi]
    exact decide_eq_false_iff_not.trans Nat.not_lt
  rw [hdone]
  constructor
  · intro hle
    refine ⟨last, ?_, hle⟩
    rw [hconcat]
    exact List.mem_append_right _ (List.mem_singleton.mpr rfl)
  · rintro ⟨a, ha, hle⟩
    rw [hconcat, List.mem_append, List.mem_singleton] at ha
    rcases ha with ha | rfl
    · -- an earlier message with such an id would have been the last one
      obtain ⟨front, back, hsplit⟩ := List.append_of_mem ha
      have hwanted := (runServer data).continues_of_arrivals hrun (front.length + 1) (by
        rw [hconcat, hsplit]
        simp only [List.length_append, List.length_cons, List.length_nil]
        omega)
      have htake : (arrivals answers).take (front.length + 1) = front ++ [a] := by
        rw [hconcat, hsplit, List.append_assoc, List.take_length_add_append]
        rfl
      rw [htake] at hwanted
      have hlt : a.header.id.toNat < data.length := by
        have hfields := i_foldl_concat data front a
        have hlt := of_decide_eq_true hwanted
        rwa [hfields] at hlt
      exact absurd hle (Nat.not_le.mpr hlt)
    · exact hle

/-- The readers that wait for the next message without a bound. -/
inductive LossyReader
  | latency (iterations : UInt32)
  | executionTime (iterations : UInt32)
  | realWorld (data : List DataPoint)

namespace LossyReader

/-- Fields and local variables. -/
def State : LossyReader → Type
  | latency _ => LatencyBenchmark.State
  | executionTime _ => ExecutionTimeBenchmark.State
  | realWorld _ => RealWorldBenchmark.State

/-- `run_server`. -/
def runServer : (reader : LossyReader) → ServerLoop reader.State
  | latency iterations => LatencyBenchmark.runServer iterations
  | executionTime iterations => ExecutionTimeBenchmark.runServer iterations
  | realWorld data => RealWorldBenchmark.runServer data

/-- The fields of a new benchmark. -/
def initial : (reader : LossyReader) → reader.State
  | latency _ => LatencyBenchmark.initial
  | executionTime _ => ExecutionTimeBenchmark.initial
  | realWorld _ => RealWorldBenchmark.initial

/-- What must have been delivered: as many messages as there are iterations, or a message whose id
says that it is the last one. A counter of iterations that can not get past their number does not end
in any case. -/
def Complete : LossyReader → List Arrival → Prop
  | latency iterations, messages =>
      iterations.toNat ≤ messages.length ∧ iterations.toNat + 1 < 2 ^ 32
  | executionTime iterations, messages =>
      iterations.toNat ≤ messages.length ∧ iterations.toNat + 1 < 2 ^ 32
  | realWorld data, messages => ∃ a ∈ messages, data.length ≤ a.header.id.toNat

/-- They never give up. -/
theorem patient (reader : LossyReader) (fields : reader.State) (retry : Int32) :
    reader.runServer.givesUp fields retry = false := by
  cases reader <;> rfl

/-- **When readers without a bound on their wait return**, after any messages and nothing more: exactly
when those are complete. -/
theorem returns_iff_complete (reader : LossyReader) {answers : List Answer}
    (hworks : ∀ answer ∈ answers, answer.Works) (hsome : arrivals answers ≠ [])
    {t : ServerState reader.State}
    (hrun : runAll reader.runServer.step (reader.runServer.start reader.initial) answers = some t) :
    reader.runServer.Returns t ↔ reader.Complete (arrivals answers) := by
  rw [returns_iff_of_patient reader.patient hworks hrun]
  cases reader with
  | latency iterations =>
      exact counted_iff LatencyBenchmark.State.i (fun _ => rfl) (fun _ _ => rfl) rfl hrun
  | executionTime iterations =>
      exact counted_iff ExecutionTimeBenchmark.State.i (fun _ => rfl) (fun _ _ => rfl) rfl hrun
  | realWorld data => exact RealWorldBenchmark.done_iff hrun hsome

/-- A message reaches the reader. -/
def someMessage : Answer := .message ⟨⟨1, .ping, 0, 7⟩, 8, 9⟩ .ping

/-- The first of two messages is delivered, and the other one is lost. -/
def oneOfTwo : List Answer := [.awaited false, .awaited true, someMessage]

/-- The reader is left waiting. -/
theorem run_oneOfTwo :
    runAll (latency 2).runServer.step ((latency 2).runServer.start (latency 2).initial) oneOfTwo =
      some ⟨.reading, ⟨2, [2]⟩⟩ := rfl

/-- It returns exactly when both have been delivered. -/
theorem returns_iff_complete_oneOfTwo :
    (latency 2).runServer.Returns ⟨.reading, ⟨2, [2]⟩⟩ ↔ (latency 2).Complete (arrivals oneOfTwo) := by
  have hworks : ∀ answer ∈ oneOfTwo, answer.Works := by simp [oneOfTwo, someMessage, Answer.Works]
  have hsome : arrivals oneOfTwo ≠ [] := List.cons_ne_nil _ _
  exact returns_iff_complete (latency 2) hworks hsome run_oneOfTwo

/-- A lost message is waited for until the end of time. -/
theorem not_returns_oneOfTwo :
    ¬ ∀ (reader : LossyReader) (answers : List Answer) (t : ServerState reader.State),
      (∀ answer ∈ answers, answer.Works) → arrivals answers ≠ [] →
      runAll reader.runServer.step (reader.runServer.start reader.initial) answers = some t →
      reader.runServer.Returns t := by
  intro h
  have hworks : ∀ answer ∈ oneOfTwo, answer.Works := by simp [oneOfTwo, someMessage, Answer.Works]
  have hreturns := h (latency 2) oneOfTwo _ hworks (List.cons_ne_nil _ _) run_oneOfTwo
  rw [returns_iff_of_patient (latency 2).patient hworks run_oneOfTwo] at hreturns
  exact absurd hreturns (by decide)

end LossyReader

/-! ## The reader that gives up -/

namespace ThroughputBenchmark

/-- Waits that have failed, one after the other, at the end of a run. -/
def EndsWithFailures (answers : List Answer) (k : ℕ) : Prop :=
  ∃ earlier, answers = earlier ++ List.replicate k (.awaited false)

theorem EndsWithFailures.succ {answers : List Answer} {k : ℕ} (h : EndsWithFailures answers k) :
    EndsWithFailures (answers ++ [.awaited false]) (k + 1) := by
  obtain ⟨earlier, rfl⟩ := h
  exact ⟨earlier, by rw [List.replicate_succ', List.append_assoc]⟩

theorem ofNat_succ (k : ℕ) : Int32.ofNat (k + 1) = Int32.ofNat k + 1 := Int32.ofNat_add k 1

/-- The failed waits that make the reader give up. -/
def failuresToGiveUp : ℕ := maxRetries.toInt.toNat + 1

/-- A count that has not made the reader give up yet makes it give up with the next failure exactly when
it is the last one tolerated. -/
theorem maxRetries_lt_iff {k : ℕ} (hk : k < failuresToGiveUp) :
    maxRetries < Int32.ofNat k + 1 ↔ k + 1 = failuresToGiveUp := by
  have hcases : k = 0 ∨ k = 1 ∨ k = 2 := by
    change k < 3 at hk
    omega
  rcases hcases with rfl | rfl | rfl <;> decide

/-- The retry counter has counted the failed waits of the round, and after the first message they are
not too many yet; a reader that has returned true has what it wants, or has had that many. -/
structure Counts (iterations : UInt32) (answers : List Answer) (s : ServerState State) : Prop where
  awaiting : ∀ retry, s.phase = .awaiting retry → ∃ k, retry = Int32.ofNat k ∧
    EndsWithFailures answers k ∧ (0 < s.fields.received → k < failuresToGiveUp)
  returned : s.phase = .returned true → s.fields.received < iterations →
    EndsWithFailures answers failuresToGiveUp

/-- A new round has no failed waits. -/
theorem counts_next (iterations : UInt32) (answers : List Answer) (moreData : Bool) (fields : State) :
    Counts iterations answers ((runServer iterations).next moreData fields) := by
  constructor
  · intro retry hphase
    rw [phase_next] at hphase
    split_ifs at hphase
    cases hphase
    exact ⟨0, rfl, ⟨answers, (List.append_nil _).symm⟩, fun _ => Nat.succ_pos _⟩
  · intro hphase hless
    -- it has not returned, since it wants more
    have hwants : (runServer iterations).continues fields = true := by
      rw [fields_next] at hless
      exact decide_eq_true hless
    rw [phase_next, if_pos hwants] at hphase
    split_ifs at hphase

/-- Every call keeps the count. -/
theorem Counts.step {iterations : UInt32} {answers : List Answer} {s t : ServerState State}
    {answer : Answer} (h : Counts iterations answers s)
    (hstep : (runServer iterations).step s answer = some t) :
    Counts iterations (answers ++ [answer]) t := by
  rcases step_cases hstep with ⟨retry, -, -, rfl⟩ | ⟨retry, hphase, rfl, rfl⟩ |
    ⟨arrival, o, -, -, rfl⟩ | ⟨before, after, -, -, rfl⟩ | ⟨e, before, after, -, -, -, rfl⟩
  · exact ⟨nofun, nofun⟩
  · obtain ⟨k, rfl, hfailures, hfew⟩ := h.awaiting retry hphase
    by_cases hgives : (runServer iterations).givesUp s.fields (Int32.ofNat k + 1) = true
    · -- one failure too many
      simp only [if_pos hgives]
      refine ⟨nofun, fun _ _ => ?_⟩
      obtain ⟨hpos, hlt⟩ := of_decide_eq_true hgives
      rw [← (maxRetries_lt_iff (hfew hpos)).mp hlt]
      exact hfailures.succ
    · simp only [if_neg hgives]
      refine ⟨?_, nofun⟩
      intro retry' hphase'
      cases hphase'
      refine ⟨k + 1, (ofNat_succ k).symm, hfailures.succ, ?_⟩
      intro hpos
      have hk := hfew hpos
      have hne : k + 1 ≠ failuresToGiveUp := by
        intro heq
        exact hgives (decide_eq_true ⟨hpos, (maxRetries_lt_iff hk).mpr heq⟩)
      omega
  · exact counts_next iterations _ true _
  · exact counts_next iterations _ false _
  · exact ⟨nofun, nofun⟩

/-- After the first message, a reader that fails to get another one returns. -/
theorem returns_of_awaiting {iterations : UInt32} (n : ℕ) {s : ServerState State} {k : ℕ}
    (hphase : s.phase = .awaiting (Int32.ofNat k)) (hpos : 0 < s.fields.received)
    (hk : k + n + 1 = failuresToGiveUp) :
    ∃ m, ((runServer iterations).wait^[m] s).phase = .returned true := by
  -- induction on the failures it still tolerates
  induction n generalizing s k with
  | zero =>
      refine ⟨1, ?_⟩
      have hgives : (runServer iterations).givesUp s.fields (Int32.ofNat k + 1) = true :=
        decide_eq_true ⟨hpos, (maxRetries_lt_iff (by omega)).mpr (by omega)⟩
      rw [Function.iterate_one, wait_of_awaiting _ hphase, if_pos hgives]
  | succ n ih =>
      have hgives : ¬ (runServer iterations).givesUp s.fields (Int32.ofNat k + 1) = true := by
        intro hgives
        have heq := (maxRetries_lt_iff (by omega)).mp (of_decide_eq_true hgives).2
        omega
      have hwait := wait_of_awaiting (runServer iterations) hphase
      rw [if_neg hgives] at hwait
      rw [← ofNat_succ] at hwait
      obtain ⟨m, hm⟩ := ih (s := { s with phase := .awaiting (Int32.ofNat (k + 1)) }) rfl hpos (by omega)
      refine ⟨m + 1, ?_⟩
      rw [Function.iterate_succ_apply, hwait]
      exact hm

/-- Wherever it is, a reader that has had a message returns true when nothing comes any more. -/
theorem returns_of_received {iterations : UInt32} {answers : List Answer} {s : ServerState State}
    (h : Counts iterations answers s) (hpos : 0 < s.fields.received)
    (hworks : s.phase ≠ .returned false) :
    ∃ n, ((runServer iterations).wait^[n] s).phase = .returned true := by
  rcases hphase : s.phase with retry | _ | success
  · obtain ⟨k, rfl, -, hfew⟩ := h.awaiting retry hphase
    have hk := hfew hpos
    exact returns_of_awaiting (failuresToGiveUp - k - 1) hphase hpos (by omega)
  · -- the read finds nothing, and a new round begins
    have hwait := wait_of_reading (runServer iterations) hphase
    by_cases hwants : (runServer iterations).continues s.fields = true
    · have hnext : ((runServer iterations).next false s.fields).phase = .awaiting (Int32.ofNat 0) := by
        rw [phase_next, if_pos hwants]
        rfl
      have hpos' : 0 < ((runServer iterations).next false s.fields).fields.received := by
        rwa [fields_next]
      obtain ⟨m, hm⟩ : ∃ m, ((runServer iterations).wait^[m]
          ((runServer iterations).next false s.fields)).phase = .returned true :=
        returns_of_awaiting 2 hnext hpos' rfl
      refine ⟨m + 1, ?_⟩
      rw [Function.iterate_succ_apply, hwait]
      exact hm
    · refine ⟨1, ?_⟩
      rw [Function.iterate_one, hwait, phase_next, if_neg hwants]
  · cases success with
    | false => exact absurd hphase hworks
    | true => exact ⟨0, hphase⟩

/-- **The throughput reader waits no longer than it should.** At every point of a run it has counted
the messages read, which are no more than it wants; if it returns true with fewer, its last
`max_retries + 1` waits have failed; and once it has had a message, it returns true when nothing comes
any more. -/
theorem bounded_wait {iterations : UInt32} {answers : List Answer}
    (hworks : ∀ answer ∈ answers, answer.Works) {t : ServerState State}
    (hrun : runAll (runServer iterations).step ((runServer iterations).start initial) answers =
      some t) :
    t.fields.received.toNat = (arrivals answers).length ∧
    (arrivals answers).length ≤ iterations.toNat ∧
    (∀ success, t.phase = .returned success → success = true ∧
      (t.fields.received < iterations → EndsWithFailures answers failuresToGiveUp)) ∧
    (arrivals answers ≠ [] →
      ∃ n, ((runServer iterations).wait^[n] t).phase = .returned true) := by
  have hreceived := received_eq hrun
  have hcounts : Counts iterations answers t :=
    runAll_history (Counts iterations) (counts_next iterations [] false initial)
      (fun _ _ _ _ h hstep => h.step hstep) hrun
  have hsuccess := phase_ne_of_works hworks hrun
  refine ⟨hreceived, length_le hrun, ?_, ?_⟩
  · intro success hphase
    cases success with
    | false => exact absurd hphase hsuccess
    | true => exact ⟨rfl, hcounts.returned hphase⟩
  · intro hsome
    have hpos : 0 < t.fields.received := by
      rw [UInt32.lt_iff_toNat_lt, hreceived]
      exact List.length_pos_iff.mpr hsome
    exact returns_of_received hcounts hpos hsuccess

/-- One message of three, and three failed waits. -/
def oneOfThree : List Answer :=
  [.awaited false, .awaited true, .message ⟨⟨1, .ping, 0, 7⟩, 8, 9⟩ .ping,
    .error .noDataAvailable 0 0, .awaited false, .awaited false, .awaited false]

/-- The reader has given up. -/
theorem bounded_wait_oneOfThree : ∃ t,
    runAll (runServer 3).step ((runServer 3).start initial) oneOfThree = some t ∧
    (t.fields.received.toNat = (arrivals oneOfThree).length ∧
      (arrivals oneOfThree).length ≤ (3 : UInt32).toNat ∧
      (∀ success, t.phase = .returned success → success = true ∧
        (t.fields.received < 3 → EndsWithFailures oneOfThree failuresToGiveUp)) ∧
      (arrivals oneOfThree ≠ [] →
        ∃ n, ((runServer 3).wait^[n] t).phase = .returned true)) := by
  have hrun : runAll (runServer 3).step ((runServer 3).start initial) oneOfThree =
      some ⟨.returned true, ⟨0, 9, 1⟩⟩ := rfl
  exact ⟨_, hrun, bounded_wait (by simp [oneOfThree, Answer.Works]) hrun⟩

end ThroughputBenchmark

end IpcPerformance
