import IpcPerformance.Benchmark.ServerLoop

/-! # The readers of the four benchmarks

`run_server` of `src/benchmark/latency.cpp`, `execution.cpp`, `realworld.cpp` and `throughput.cpp`: what
each of them fills in in the reading loop, and what its fields are after a number of messages. -/

namespace IpcPerformance

/-- What becomes of a 64-bit time difference in a field of type `unsigned int`. -/
def toUnsignedInt (delta : Int64) : UInt32 := delta.toUInt64.toUInt32

/-- A signed number and its unsigned representation. -/
theorem toInt_eq_toUInt64 (a : Int64) :
    a.toInt = if 2 * a.toUInt64.toNat < 2 ^ 64 then (a.toUInt64.toNat : ℤ)
      else a.toUInt64.toNat - 2 ^ 64 :=
  BitVec.toInt_eq_toNat_cond a.toBitVec

/-- What is stored is the difference modulo 2^32. -/
theorem toNat_toUnsignedInt_sub (a b : Int64) :
    ((toUnsignedInt (a - b)).toNat : ℤ) = (a.toInt - b.toInt) % 2 ^ 32 := by
  have ha := toInt_eq_toUInt64 a
  have hb := toInt_eq_toUInt64 b
  have hlta := a.toUInt64.toNat_lt
  have hltb := b.toUInt64.toNat_lt
  rw [toUnsignedInt, UInt64.toNat_toUInt32, Int64.toUInt64_sub, UInt64.toNat_sub]
  omega

/-! ## Latency and execution time -/

namespace LatencyBenchmark

/-- The local variable `i` and the field `latencies_`. -/
structure State where
  /-- Number of the next iteration. -/
  i : UInt32
  /-- The latencies measured so far. -/
  latencies : List UInt32

/-- The fields of a new benchmark, at the first iteration. -/
def initial : State := ⟨1, []⟩

/-- `LatencyBenchmark::run_server`. -/
def runServer (iterations : UInt32) : ServerLoop State where
  continues s := s.i ≤ iterations
  givesUp _ _ := false
  received s arrival :=
    -- compute latency from creation to now
    let delta := arrival.after - arrival.header.timestamp
    ⟨s.i + 1, s.latencies ++ [toUnsignedInt delta]⟩

end LatencyBenchmark

namespace ExecutionTimeBenchmark

/-- The local variable `i` and the field `execution_times_`. -/
structure State where
  /-- Number of the next iteration. -/
  i : UInt32
  /-- The execution times measured so far. -/
  executionTimes : List UInt32

/-- The fields of a new benchmark, at the first iteration. -/
def initial : State := ⟨1, []⟩

/-- `ExecutionTimeBenchmark::run_server`. -/
def runServer (iterations : UInt32) : ServerLoop State where
  continues s := s.i ≤ iterations
  givesUp _ _ := false
  received s arrival :=
    let delta := arrival.after - arrival.before
    ⟨s.i + 1, s.executionTimes ++ [toUnsignedInt delta]⟩

end ExecutionTimeBenchmark

/-! ## Real world -/

/-- A data point for each message. -/
structure DataPoint where
  /-- Time in nanoseconds since epoch. -/
  time : Int64
  /-- Data to send or receive. -/
  symbol : JavaSymbol

namespace RealWorldBenchmark

/-- The local variable `i` and the field `misses_`. -/
structure State where
  /-- Id of the last message. -/
  i : UInt32
  /-- Lost messages. -/
  misses : UInt32

/-- The fields of a new benchmark, before the first message. -/
def initial : State := ⟨0, 0⟩

/-- `RealWorldBenchmark::run_server`. -/
def runServer (data : List DataPoint) : ServerLoop State where
  continues s := s.i.toNat < data.length
  givesUp _ _ := false
  received s arrival := ⟨arrival.header.id, s.misses + (arrival.header.id - s.i - 1)⟩

end RealWorldBenchmark

/-! ## Throughput -/

/-- `WAIT_TIME`: time to wait for each poll in milliseconds. -/
def waitTime : Int32 := 5000

namespace ThroughputBenchmark

/-- The fields `start_time_`, `end_time_` and `received_`. -/
structure State where
  /-- Where the window of the figure begins. -/
  startTime : Int64
  /-- Where it ends. -/
  endTime : Int64
  /-- Amount of messages received. -/
  received : UInt32

/-- The fields of a new benchmark. -/
def initial : State := ⟨0, 0, 0⟩

/-- Failed waits that are tolerated in a row, once there has been a message: ten seconds of them. -/
def maxRetries : Int32 := 10 * 1000 / waitTime

/-- `ThroughputBenchmark::run_server`. -/
def runServer (iterations : UInt32) : ServerLoop State where
  continues s := s.received < iterations
  givesUp s retry := 0 < s.received ∧ maxRetries < retry
  received s arrival :=
    { startTime := if s.received = 1 then arrival.header.timestamp else s.startTime
      endTime := arrival.after
      received := s.received + 1 }

/-- The bytes `get_throughput` divides by the time; `size` is the size of a message body. -/
def byteCount (size : UInt32) (s : State) : UInt32 := s.received * size

end ThroughputBenchmark

/-! ## After a number of messages -/

/-- A counter that every message increments: it has counted them. -/
theorem counter_foldl {β : Type} (counter : β → UInt32) (received : β → Arrival → β)
    (hstep : ∀ s a, counter (received s a) = counter s + 1) (s : β) (arrivals : List Arrival) :
    counter (arrivals.foldl received s) = counter s + UInt32.ofNat arrivals.length := by
  induction arrivals generalizing s with
  | nil => simp
  | cons a arrivals ih =>
      have hone : UInt32.ofNat 1 = 1 := rfl
      rw [List.foldl_cons, ih, hstep, List.length_cons, UInt32.ofNat_add, hone]
      grind

/-- The value of a counter that starts at one. -/
theorem toNat_counter (n : ℕ) : (1 + UInt32.ofNat n).toNat = (1 + n) % 2 ^ 32 := by
  rw [UInt32.toNat_add, UInt32.toNat_ofNat']
  exact (Nat.add_mod 1 n (2 ^ 32)).symm

/-- A counter is not asked for more than its bound, unless the bound is the largest number there
is. -/
theorem le_of_wanted {iterations : UInt32} (hbound : iterations.toNat + 1 < 2 ^ 32) {k : ℕ}
    (hwanted : ∀ n < k, 1 + UInt32.ofNat n ≤ iterations) : k ≤ iterations.toNat := by
  by_contra hmore
  -- it would have been asked for one more than it counts up to
  have hearlier := UInt32.le_iff_toNat_le.mp (hwanted iterations.toNat (by omega))
  rw [toNat_counter, Nat.mod_eq_of_lt (by omega)] at hearlier
  omega

/-- A counter that starts at one passes its bound exactly when it has counted that far, and never when
the bound is the largest number there is. -/
theorem lt_counter_iff {iterations : UInt32} {k : ℕ}
    (hwanted : ∀ n < k, 1 + UInt32.ofNat n ≤ iterations) :
    iterations < 1 + UInt32.ofNat k ↔ iterations.toNat ≤ k ∧ iterations.toNat + 1 < 2 ^ 32 := by
  have hlt := iterations.toNat_lt
  rw [UInt32.lt_iff_toNat_lt, toNat_counter]
  constructor
  · intro hpassed
    have hmod := Nat.mod_lt (1 + k) (show 0 < 2 ^ 32 by decide)
    have hbound : iterations.toNat + 1 < 2 ^ 32 := by omega
    have hle := le_of_wanted hbound hwanted
    rw [Nat.mod_eq_of_lt (by omega)] at hpassed
    exact ⟨by omega, hbound⟩
  · rintro ⟨hle, hbound⟩
    have hge := le_of_wanted hbound hwanted
    rw [Nat.mod_eq_of_lt (by omega)]
    omega

section Counting

variable {β : Type} {loop : ServerLoop β} {iterations : UInt32} (counter : β → UInt32)
  (hcontinues : ∀ s, loop.continues s = decide (counter s ≤ iterations))
  (hstep : ∀ s a, counter (loop.received s a) = counter s + 1) {fields : β}
  (hone : counter fields = 1) {answers : List Answer} {t : ServerState β}
  (hrun : runAll loop.step (loop.start fields) answers = some t)

include hcontinues hstep hone hrun

/-- A loop that counts its iterations has wanted each of its messages. -/
theorem counter_wanted (n : ℕ) (hn : n < (arrivals answers).length) :
    1 + UInt32.ofNat n ≤ iterations := by
  have hwants := loop.continues_of_arrivals hrun n hn
  rw [hcontinues, counter_foldl counter loop.received hstep, hone,
    List.length_take_of_le hn.le] at hwants
  exact of_decide_eq_true hwants

/-- When it is done. -/
theorem counted_iff : loop.continues t.fields = false ↔
    iterations.toNat ≤ (arrivals answers).length ∧ iterations.toNat + 1 < 2 ^ 32 := by
  rw [ServerLoop.fields_of_run hrun, hcontinues, counter_foldl counter loop.received hstep, hone,
    decide_eq_false_iff_not, UInt32.not_le]
  exact lt_counter_iff (counter_wanted counter hcontinues hstep hone hrun)

/-- Then it has counted every iteration once. -/
theorem length_arrivals_of_counted (hdone : loop.continues t.fields = false) :
    (arrivals answers).length = iterations.toNat := by
  obtain ⟨hle, hbound⟩ := (counted_iff counter hcontinues hstep hone hrun).mp hdone
  have hwanted := counter_wanted counter hcontinues hstep hone hrun
  exact le_antisymm (le_of_wanted hbound hwanted) hle

end Counting

/-- The latencies are those of the messages, one after the other. -/
theorem LatencyBenchmark.latencies_foldl (iterations : UInt32) (s : State)
    (arrivals : List Arrival) :
    (arrivals.foldl (runServer iterations).received s).latencies =
      s.latencies ++ arrivals.map fun a => toUnsignedInt (a.after - a.header.timestamp) := by
  induction arrivals generalizing s with
  | nil => exact (List.append_nil _).symm
  | cons a arrivals ih =>
      rw [List.foldl_cons, ih, List.map_cons, runServer, List.append_assoc]
      rfl

/-- The losses counted and the messages processed add up to the last id, however the ids are
ordered. -/
theorem RealWorldBenchmark.misses_foldl (data : List DataPoint) (arrivals : List Arrival) :
    (arrivals.foldl (runServer data).received initial).misses + UInt32.ofNat arrivals.length =
      (arrivals.foldl (runServer data).received initial).i := by
  induction arrivals using List.reverseRecOn with
  | nil => rfl
  | append_singleton arrivals a ih =>
      have hone : UInt32.ofNat 1 = 1 := rfl
      rw [List.foldl_append, List.length_append, UInt32.ofNat_add, List.length_singleton, hone]
      simp only [List.foldl_cons, List.foldl_nil, runServer] at ih ⊢
      grind

/-- The last id is that of the last message. -/
theorem RealWorldBenchmark.i_foldl_concat (data : List DataPoint) (arrivals : List Arrival)
    (a : Arrival) :
    ((arrivals ++ [a]).foldl (runServer data).received initial).i = a.header.id := by
  rw [List.foldl_append]
  rfl

/-- The window ends at the last message. -/
theorem ThroughputBenchmark.endTime_foldl_concat (iterations : UInt32) (arrivals : List Arrival)
    (a : Arrival) :
    ((arrivals ++ [a]).foldl (runServer iterations).received initial).endTime = a.after := by
  rw [List.foldl_append]
  rfl

/-- The window begins at the second message, as long as the counter does not wrap. -/
theorem ThroughputBenchmark.startTime_foldl (iterations : UInt32) (a b : Arrival)
    (rest : List Arrival) (hlt : (a :: b :: rest).length < 2 ^ 32) :
    ((a :: b :: rest).foldl (runServer iterations).received initial).startTime =
      b.header.timestamp := by
  induction rest using List.reverseRecOn with
  | nil => rfl
  | append_singleton rest c ih =>
      have hlen : (a :: b :: rest).length + 1 < 2 ^ 32 := by
        simp only [List.length_cons, List.length_append, List.length_nil] at hlt ⊢
        omega
      -- the counter is past one, so the later messages leave the start alone
      have hcount := counter_foldl State.received (runServer iterations).received (fun _ _ => rfl)
        initial (a :: b :: rest)
      have hne : ((a :: b :: rest).foldl (runServer iterations).received initial).received ≠ 1 := by
        intro hone
        rw [hcount] at hone
        have hnat := congrArg UInt32.toNat hone
        change (0 + UInt32.ofNat (a :: b :: rest).length).toNat = 1 at hnat
        rw [UInt32.zero_add, UInt32.toNat_ofNat', Nat.mod_eq_of_lt (by omega), List.length_cons,
          List.length_cons] at hnat
        omega
      rw [← List.cons_append, ← List.cons_append, List.foldl_append, ← ih (by omega)]
      exact if_neg hne

end IpcPerformance
