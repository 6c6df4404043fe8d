import IpcPerformance.Benchmark.Readers

/-! # The deadlines of the real-world writer

`RealWorldBenchmark::run_client` of `src/benchmark/realworld.cpp`, as `run_real_world` of `src/main.cpp`
sets it up: it shifts the data set to one second after the start, and counts a miss for every point that
is past its deadline by more than a threshold when its turn comes. The threshold it is given is not the
one that was asked for.

* `RealWorldBenchmark.run_rounds` — point by point, as long as nothing overflows.
* `RealWorldBenchmark.reports_iff` — when the misses reported are those of the threshold that was asked
  for. -/

namespace IpcPerformance

/-- The number is a signed 64-bit one. -/
def Fits64 (n : ℤ) : Prop := -2 ^ 63 ≤ n ∧ n < 2 ^ 63

instance (n : ℤ) : Decidable (Fits64 n) := inferInstanceAs (Decidable (-2 ^ 63 ≤ n ∧ n < 2 ^ 63))

/-- The result of a signed 64-bit operation; no value when it overflows, which is undefined. -/
def checked (n : ℤ) : Option Int64 := if Fits64 n then some (Int64.ofInt n) else none

/-- Without an overflow the result is exact. -/
theorem exists_checked {n : ℤ} (h : Fits64 n) : ∃ a : Int64, checked n = some a ∧ a.toInt = n :=
  ⟨Int64.ofInt n, if_pos h, Int64.toInt_ofInt_of_le h.1 h.2⟩

/-- An overflow has no result. -/
theorem checked_of_not_fits64 {n : ℤ} (h : ¬ Fits64 n) : checked n = none := if_neg h

/-- The fields of a benchmark that it is made with. -/
structure RealWorldBenchmark where
  /-- The data points. -/
  data : List DataPoint
  /-- Maximum deadline threshold in microseconds per message. -/
  threshold : UInt32

/-- `run_real_world`: the benchmark it makes for a data set and a threshold. -/
def runRealWorld (data : List DataPoint) (_threshold : UInt32) : RealWorldBenchmark := ⟨data, 5⟩

namespace RealWorldBenchmark

/-! ## The writer -/

/-- What a call gives the writer. -/
inductive ClientAnswer
  /-- `get_timestamp` returns. -/
  | timestamp (now : Int64)
  /-- `write` returns. -/
  | written (result : Bool)

/-- The call the writer makes next. -/
inductive ClientPhase
  /-- The first `get_timestamp`. -/
  | starting
  /-- `get_timestamp`, for the point `i`. -/
  | timing (i : UInt32)
  /-- `write`, for the point `i`. -/
  | writing (i : UInt32)
  /-- None: `run_client` has returned. -/
  | returned (success : Bool)
  /-- None: a signed operation has overflowed, or a vector has been read past its end. -/
  | undefined

/-- The state of the writer. -/
structure ClientState where
  /-- The call that comes next. -/
  phase : ClientPhase
  /-- What the data set is shifted by. -/
  delta : Int64
  /-- Deadline misses. -/
  misses : UInt32
  /-- The symbols that have been written. -/
  sent : List JavaSymbol

/-- `start_delay` in nanoseconds. -/
def startDelay : Int64 := 1 * 1000 * 1000 * 1000

/-- `threshold`, in nanoseconds. -/
def nanoseconds (bench : RealWorldBenchmark) : UInt32 := bench.threshold * 1000

/-- `run_client` begins: the estimated time is printed. -/
def start (bench : RealWorldBenchmark) : ClientState :=
  match bench.data.head?, bench.data.getLast? with
  | some front, some back =>
      match checked (back.time.toInt - front.time.toInt) with
      | some _ => ⟨.starting, 0, 0, []⟩
      | none => ⟨.undefined, 0, 0, []⟩
  | _, _ => ⟨.undefined, 0, 0, []⟩

/-- The next round of the loop. -/
def nextPoint (bench : RealWorldBenchmark) (i : UInt32) : ClientPhase :=
  if i.toNat < bench.data.length then .timing i else .returned true

/-- `get_timestamp() - data_[0].time + start_delay`. -/
def shift (first now : Int64) : Option Int64 :=
  (checked (now.toInt - first.toInt)).bind fun elapsed => checked (elapsed.toInt + startDelay.toInt)

/-- One call and what `run_client` does until the next one. -/
def step (bench : RealWorldBenchmark) (s : ClientState) (answer : ClientAnswer) : Option ClientState :=
  match s.phase, answer with
  | .starting, .timestamp now =>
      match bench.data.head? with
      | none => some { s with phase := .undefined }
      | some first =>
          match shift first.time now with
          | none => some { s with phase := .undefined }
          | some delta => some { s with phase := bench.nextPoint 0, delta }
  | .timing i, .timestamp now =>
      match bench.data[i.toNat]? with
      | none => some { s with phase := .undefined }
      | some point =>
          match checked (point.time.toInt + s.delta.toInt),
            checked (now.toInt - bench.nanoseconds.toNat) with
          | some time, some now =>
              some { s with
                phase := .writing i, misses := if time < now then s.misses + 1 else s.misses }
          | _, _ => some { s with phase := .undefined }
  | .writing i, .written result =>
      match bench.data[i.toNat]? with
      | none => some { s with phase := .undefined }
      | some point =>
          let sent := s.sent ++ [point.symbol]
          if result then some { s with phase := bench.nextPoint (i + 1), sent }
          else some { s with phase := .returned false, sent }
  | _, _ => none

/-- The answers when all writes succeed: the clock at the start, and then the clock of a point and its
write in turns. -/
def answers (started : Int64) (clocks : ℕ → Int64) : ℕ → ClientAnswer
  | 0 => .timestamp started
  | n + 1 => if n % 2 = 0 then .timestamp (clocks (n / 2)) else .written true

/-! ## Deadlines -/

/-- The time of a point. -/
def timeAt (bench : RealWorldBenchmark) (i : ℕ) : ℤ :=
  (bench.data[i]?.map fun point => point.time.toInt).getD 0

/-- The exact shift: the first point is one second after the start. -/
def exactDelta (bench : RealWorldBenchmark) (started : Int64) : ℤ :=
  started.toInt - bench.timeAt 0 + 1000000000

/-- By how much the clock is past the time of a point, when its turn comes. -/
def lateness (bench : RealWorldBenchmark) (started : Int64) (clocks : ℕ → Int64) (i : ℕ) : ℤ :=
  (clocks i).toInt - (bench.timeAt i + bench.exactDelta started)

/-- The points that are late by more than `limit`, among the first `n`. -/
def lateCount (bench : RealWorldBenchmark) (started : Int64) (clocks : ℕ → Int64) (limit : ℤ)
    (n : ℕ) : ℕ :=
  Nat.count (fun i => limit < bench.lateness started clocks i) n

/-- A threshold in nanoseconds. -/
def tolerance (threshold : UInt32) : ℤ := threshold.toNat * 1000

/-- `run_client` writes every point once and in order, and reports the points that are late by more than
`threshold` microseconds. -/
def Reports (bench : RealWorldBenchmark) (threshold : UInt32) (started : Int64) (clocks : ℕ → Int64) :
    Prop :=
  ∃ n t, runFor bench.step bench.start (answers started clocks) n = some t ∧
    t.phase = .returned true ∧ t.sent = bench.data.map DataPoint.symbol ∧
    t.misses.toNat = bench.lateCount started clocks (tolerance threshold) bench.data.length

/-- No operation for the point overflows. -/
def PointInRange (bench : RealWorldBenchmark) (started : Int64) (clocks : ℕ → Int64) (i : ℕ) : Prop :=
  Fits64 (bench.timeAt i + bench.exactDelta started) ∧
    Fits64 ((clocks i).toInt - bench.nanoseconds.toNat)

/-- No operation overflows. -/
structure InRange (bench : RealWorldBenchmark) (started : Int64) (clocks : ℕ → Int64) : Prop where
  /-- The estimated time. -/
  span : Fits64 (bench.timeAt (bench.data.length - 1) - bench.timeAt 0)
  /-- The time from the first point to the start. -/
  elapsed : Fits64 (started.toInt - bench.timeAt 0)
  /-- The shift. -/
  delta : Fits64 (bench.exactDelta started)
  /-- The points. -/
  points : ∀ i < bench.data.length, bench.PointInRange started clocks i

/-! ## One round -/

variable {bench : RealWorldBenchmark} {started : Int64} {clocks : ℕ → Int64}

/-- The clock of a point. -/
theorem answers_timing (started : Int64) (clocks : ℕ → Int64) (i : ℕ) :
    answers started clocks (2 * i + 1) = .timestamp (clocks i) := by
  rw [answers, if_pos (Nat.mul_mod_right 2 i), Nat.mul_div_cancel_left i (by decide)]

/-- The write of a point. -/
theorem answers_writing (started : Int64) (clocks : ℕ → Int64) (i : ℕ) :
    answers started clocks (2 * i + 2) = .written true := by
  have hodd : ¬ (2 * i + 1) % 2 = 0 := by omega
  rw [answers, if_neg hodd]

theorem timeAt_of_lt {i : ℕ} (hi : i < bench.data.length) :
    bench.timeAt i = bench.data[i].time.toInt := by
  rw [timeAt, List.getElem?_eq_getElem hi]
  rfl

/-- A writer that has returned makes no more calls. -/
theorem step_of_returned {s : ClientState} {success : Bool} (h : s.phase = .returned success)
    (answer : ClientAnswer) : bench.step s answer = none := by
  unfold step
  rw [h]

/-- Nothing is known of a writer after an overflow. -/
theorem step_of_undefined {s : ClientState} (h : s.phase = .undefined) (answer : ClientAnswer) :
    bench.step s answer = none := by
  unfold step
  rw [h]

/-- The estimated time of a data set. -/
theorem start_eq (hdata : bench.data ≠ []) :
    bench.start = ⟨if Fits64 (bench.timeAt (bench.data.length - 1) - bench.timeAt 0) then .starting
      else .undefined, 0, 0, []⟩ := by
  have hpos : 0 < bench.data.length := List.length_pos_of_ne_nil hdata
  have hback : bench.data.getLast? = some bench.data[bench.data.length - 1] := by
    rw [List.getLast?_eq_getElem?, List.getElem?_eq_getElem]
  rw [timeAt_of_lt hpos, timeAt_of_lt (Nat.sub_one_lt hpos.ne')]
  rw [start, List.head?_eq_getElem?, List.getElem?_eq_getElem hpos, hback]
  by_cases hspan : Fits64 (bench.data[bench.data.length - 1].time.toInt - bench.data[0].time.toInt)
  · simp only [checked, if_pos hspan]
  · simp only [checked, if_neg hspan]

/-- The shift is exact, if nothing overflows. -/
theorem shift_eq (hdata : bench.data ≠ []) (started : Int64) :
    shift (bench.data.head hdata).time started =
      if Fits64 (started.toInt - bench.timeAt 0) ∧ Fits64 (bench.exactDelta started) then
        some (Int64.ofInt (bench.exactDelta started))
      else none := by
  have hpos : 0 < bench.data.length := List.length_pos_of_ne_nil hdata
  have hhead : (bench.data.head hdata).time.toInt = bench.timeAt 0 := by
    rw [timeAt_of_lt hpos, List.head_eq_getElem]
  rw [shift, hhead]
  by_cases helapsed : Fits64 (started.toInt - bench.timeAt 0)
  · obtain ⟨elapsed, hchecked, hexact⟩ := exists_checked helapsed
    have hdelay : elapsed.toInt + startDelay.toInt = bench.exactDelta started := by
      rw [hexact]
      rfl
    rw [hchecked, Option.bind_some, hdelay, checked]
    exact if_congr (and_iff_right helapsed).symm rfl rfl
  · rw [checked_of_not_fits64 helapsed, if_neg fun h => helapsed h.1]
    rfl

/-- The first clock. -/
theorem step_starting (hdata : bench.data ≠ []) (started : Int64) :
    bench.step ⟨.starting, 0, 0, []⟩ (.timestamp started) =
      some (if Fits64 (started.toInt - bench.timeAt 0) ∧ Fits64 (bench.exactDelta started) then
        ⟨bench.nextPoint 0, Int64.ofInt (bench.exactDelta started), 0, []⟩
      else ⟨.undefined, 0, 0, []⟩) := by
  have hshift := shift_eq hdata started
  simp only [step, List.head?_eq_some_head hdata, hshift]
  split_ifs <;> rfl

/-- What the writer has to have before the round of point `i`. -/
def round (bench : RealWorldBenchmark) (started : Int64) (clocks : ℕ → Int64) (i : ℕ) : ClientState where
  phase := bench.nextPoint (UInt32.ofNat i)
  delta := Int64.ofInt (bench.exactDelta started)
  misses := UInt32.ofNat (bench.lateCount started clocks bench.nanoseconds.toNat i)
  sent := (bench.data.take i).map DataPoint.symbol

/-- There is a round for every point. -/
theorem nextPoint_of_lt {i : ℕ} (hi : i < bench.data.length) (hlt : bench.data.length < 2 ^ 32) :
    bench.nextPoint (UInt32.ofNat i) = .timing (UInt32.ofNat i) := by
  apply if_pos
  rw [toNat_ofNat_length (hi.trans hlt)]
  exact hi

/-- After the last one the loop ends. -/
theorem nextPoint_length (hlt : bench.data.length < 2 ^ 32) :
    bench.nextPoint (UInt32.ofNat bench.data.length) = .returned true := by
  apply if_neg
  rw [toNat_ofNat_length hlt]
  exact lt_irrefl _

/-- The clock of a point decides whether it is late. -/
theorem step_timing (hdelta : Fits64 (bench.exactDelta started)) {i : ℕ} (hi : i < bench.data.length)
    (hlt : i < 2 ^ 32) (hrange : bench.PointInRange started clocks i) (misses : UInt32)
    (sent : List JavaSymbol) :
    bench.step ⟨.timing (UInt32.ofNat i), Int64.ofInt (bench.exactDelta started), misses, sent⟩
        (.timestamp (clocks i)) =
      some ⟨.writing (UInt32.ofNat i), Int64.ofInt (bench.exactDelta started),
        if bench.nanoseconds.toNat < bench.lateness started clocks i then misses + 1 else misses,
        sent⟩ := by
  have hindex : (UInt32.ofNat i).toNat = i := toNat_ofNat_length hlt
  have hexact : (Int64.ofInt (bench.exactDelta started)).toInt = bench.exactDelta started :=
    Int64.toInt_ofInt_of_le hdelta.1 hdelta.2
  obtain ⟨time, htime, htimeExact⟩ := exists_checked hrange.1
  obtain ⟨now, hnow, hnowExact⟩ := exists_checked hrange.2
  have hlate : time < now ↔ bench.nanoseconds.toNat < bench.lateness started clocks i := by
    rw [Int64.lt_iff_toInt_lt, htimeExact, hnowExact, lateness]
    omega
  simp only [step, hindex, List.getElem?_eq_getElem hi, hexact, ← timeAt_of_lt hi, htime, hnow, hlate]

/-- An overflow leaves the writer undefined. -/
theorem step_timing_of_not_inRange (hdelta : Fits64 (bench.exactDelta started)) {i : ℕ}
    (hi : i < bench.data.length) (hlt : i < 2 ^ 32) (hrange : ¬ bench.PointInRange started clocks i)
    (misses : UInt32) (sent : List JavaSymbol) :
    bench.step ⟨.timing (UInt32.ofNat i), Int64.ofInt (bench.exactDelta started), misses, sent⟩
        (.timestamp (clocks i)) =
      some ⟨.undefined, Int64.ofInt (bench.exactDelta started), misses, sent⟩ := by
  have hindex : (UInt32.ofNat i).toNat = i := toNat_ofNat_length hlt
  have hexact : (Int64.ofInt (bench.exactDelta started)).toInt = bench.exactDelta started :=
    Int64.toInt_ofInt_of_le hdelta.1 hdelta.2
  simp only [step, hindex, List.getElem?_eq_getElem hi, hexact, ← timeAt_of_lt hi]
  by_cases htime : Fits64 (bench.timeAt i + bench.exactDelta started)
  · have hnow : checked ((clocks i).toInt - bench.nanoseconds.toNat) = none :=
      checked_of_not_fits64 fun h => hrange ⟨htime, h⟩
    obtain ⟨time, htime, -⟩ := exists_checked htime
    simp only [htime, hnow]
  · simp only [checked_of_not_fits64 htime]

/-- A write that succeeds leads to the next round. -/
theorem step_writing {i : ℕ} (hi : i < bench.data.length) (hlt : i < 2 ^ 32) (delta : Int64)
    (misses : UInt32) :
    bench.step ⟨.writing (UInt32.ofNat i), delta, misses, (bench.data.take i).map DataPoint.symbol⟩
        (.written true) =
      some ⟨bench.nextPoint (UInt32.ofNat (i + 1)), delta, misses,
        (bench.data.take (i + 1)).map DataPoint.symbol⟩ := by
  have hindex : (UInt32.ofNat i).toNat = i := toNat_ofNat_length hlt
  have hsent : (bench.data.take (i + 1)).map DataPoint.symbol =
      (bench.data.take i).map DataPoint.symbol ++ [bench.data[i].symbol] := by
    rw [List.take_succ_eq_append_getElem hi, List.map_append, List.map_singleton]
  rw [hsent, UInt32.ofNat_add]
  simp only [step, hindex, List.getElem?_eq_getElem hi, if_true]
  rfl

/-- The counter counts a late point. -/
theorem ofNat_lateCount_succ (limit : ℤ) (i : ℕ) :
    UInt32.ofNat (bench.lateCount started clocks limit (i + 1)) =
      if limit < bench.lateness started clocks i then
        UInt32.ofNat (bench.lateCount started clocks limit i) + 1
      else UInt32.ofNat (bench.lateCount started clocks limit i) := by
  rw [lateCount, Nat.count_succ]
  split_ifs
  · exact UInt32.ofNat_add _ 1
  · rfl

/-! ## Runs -/

/-- **Point by point**: as long as nothing overflows, every round counts its point if it is late and
writes it. -/
theorem run_rounds (hdata : bench.data ≠ []) (hlt : bench.data.length < 2 ^ 32)
    (hspan : Fits64 (bench.timeAt (bench.data.length - 1) - bench.timeAt 0))
    (helapsed : Fits64 (started.toInt - bench.timeAt 0)) (hdelta : Fits64 (bench.exactDelta started))
    {i : ℕ} (hi : i ≤ bench.data.length) (hpoints : ∀ j < i, bench.PointInRange started clocks j) :
    runFor bench.step bench.start (answers started clocks) (2 * i + 1) =
      some (bench.round started clocks i) := by
  induction i with
  | zero =>
      have hstart : bench.start = ⟨.starting, 0, 0, []⟩ := by
        rw [start_eq hdata, if_pos hspan]
      have hfirst := step_starting hdata started
      rw [if_pos ⟨helapsed, hdelta⟩] at hfirst
      rw [hstart]
      exact runFor_succ_eq_some.mpr ⟨_, rfl, hfirst⟩
  | succ i ih =>
      have hround := ih (by omega) fun j hj => hpoints j (by omega)
      rw [round, nextPoint_of_lt hi hlt] at hround
      have hclock := step_timing hdelta hi (lt_of_lt_of_le hi hlt.le) (hpoints i (Nat.lt_succ_self i))
        (UInt32.ofNat (bench.lateCount started clocks bench.nanoseconds.toNat i))
        ((bench.data.take i).map DataPoint.symbol)
      rw [← answers_timing started clocks i] at hclock
      have htimed := runFor_succ_eq_some.mpr ⟨_, hround, hclock⟩
      rw [show 2 * (i + 1) + 1 = 2 * i + 1 + 1 + 1 by ring, round, ofNat_lateCount_succ]
      refine runFor_succ_eq_some.mpr ⟨_, htimed, ?_⟩
      rw [answers_writing started clocks i]
      exact step_writing hi (lt_of_lt_of_le hi hlt.le) _ _

/-- An overflow is reached. -/
theorem exists_undefined (hdata : bench.data ≠ []) (hlt : bench.data.length < 2 ^ 32)
    (h : ¬ bench.InRange started clocks) :
    ∃ n t, runFor bench.step bench.start (answers started clocks) n = some t ∧
      t.phase = .undefined := by
  by_cases hspan : Fits64 (bench.timeAt (bench.data.length - 1) - bench.timeAt 0)
  · by_cases hshift : Fits64 (started.toInt - bench.timeAt 0) ∧ Fits64 (bench.exactDelta started)
    · -- the first point with an overflow
      have hsome : ∃ i, i < bench.data.length ∧ ¬ bench.PointInRange started clocks i := by
        by_contra hnone
        refine h ⟨hspan, hshift.1, hshift.2, fun i hi => ?_⟩
        by_contra hrange
        exact hnone ⟨i, hi, hrange⟩
      classical
      obtain ⟨hi, hrange⟩ := Nat.find_spec hsome
      have hbefore : ∀ j < Nat.find hsome, bench.PointInRange started clocks j := by
        intro j hj
        by_contra hrange
        exact Nat.find_min hsome hj ⟨hj.trans hi, hrange⟩
      generalize Nat.find hsome = i at hi hrange hbefore
      have hround := run_rounds hdata hlt hspan hshift.1 hshift.2 hi.le hbefore
      rw [round, nextPoint_of_lt hi hlt] at hround
      have hclock := step_timing_of_not_inRange hshift.2 hi (hi.trans hlt) hrange
        (UInt32.ofNat (bench.lateCount started clocks bench.nanoseconds.toNat i))
        ((bench.data.take i).map DataPoint.symbol)
      rw [← answers_timing started clocks i] at hclock
      exact ⟨_, _, runFor_succ_eq_some.mpr ⟨_, hround, hclock⟩, rfl⟩
    · have hstart : bench.start = ⟨.starting, 0, 0, []⟩ := by
        rw [start_eq hdata, if_pos hspan]
      have hfirst := step_starting hdata started
      rw [if_neg hshift] at hfirst
      rw [hstart]
      exact ⟨1, _, runFor_succ_eq_some.mpr ⟨_, rfl, hfirst⟩, rfl⟩
  · exact ⟨0, _, rfl, by rw [start_eq hdata, if_neg hspan]⟩

/-- Where a call leads: into a round, to a write, or to an end that is not a success. -/
theorem phase_of_step {s t : ClientState} {answer : ClientAnswer}
    (h : bench.step s answer = some t) :
    (∃ i, t.phase = bench.nextPoint i) ∨ (∃ i, t.phase = .writing i) ∨ t.phase = .returned false ∨
      t.phase = .undefined := by
  unfold step at h
  split at h
  · -- the first clock
    split at h
    · cases h
      exact .inr (.inr (.inr rfl))
    · split at h
      · cases h
        exact .inr (.inr (.inr rfl))
      · cases h
        exact .inl ⟨0, rfl⟩
  · -- the clock of a point
    split at h
    · cases h
      exact .inr (.inr (.inr rfl))
    · split at h
      · cases h
        exact .inr (.inl ⟨_, rfl⟩)
      · cases h
        exact .inr (.inr (.inr rfl))
  · -- a write
    split at h
    · cases h
      exact .inr (.inr (.inr rfl))
    · split at h
      · cases h
        exact .inl ⟨_, rfl⟩
      · cases h
        exact .inr (.inr (.inl rfl))
  · cases h

/-- A counter of 32 bits does not get to the end of a longer data set. -/
theorem ne_returned_of_le (hlong : 2 ^ 32 ≤ bench.data.length) {n : ℕ} {t : ClientState}
    (hrun : runFor bench.step bench.start (answers started clocks) n = some t) :
    t.phase ≠ .returned true := by
  refine runAll_history (fun _ s => s.phase ≠ .returned true) ?_ ?_ hrun
  · unfold start
    split
    · split <;> exact nofun
    · exact nofun
  · intro is s answer t _ hstep
    rcases phase_of_step hstep with ⟨i, hphase⟩ | ⟨i, hphase⟩ | hphase | hphase
    · have hi := i.toNat_lt
      rw [hphase, nextPoint, if_pos (by omega)]
      exact nofun
    · rw [hphase]
      exact nofun
    · rw [hphase]
      exact nofun
    · rw [hphase]
      exact nofun

/-- In the end all points are written, and those are counted that were late by more than the threshold
of the benchmark. -/
theorem run_end (hdata : bench.data ≠ []) (hlt : bench.data.length < 2 ^ 32)
    (hrange : bench.InRange started clocks) :
    ∃ n t, runFor bench.step bench.start (answers started clocks) n = some t ∧
      t.phase = .returned true ∧ t.sent = bench.data.map DataPoint.symbol ∧
      t.misses.toNat =
        bench.lateCount started clocks bench.nanoseconds.toNat bench.data.length := by
  refine ⟨_, _, run_rounds hdata hlt hrange.span hrange.elapsed hrange.delta le_rfl hrange.points,
    ?_, ?_, ?_⟩
  · exact nextPoint_length hlt
  · rw [round, List.take_length]
  · exact toNat_ofNat_length (lt_of_le_of_lt (Nat.count_le _) hlt)

/-- Two nested conditions hold equally often exactly when they are the same. -/
theorem count_eq_count_iff {p q : ℕ → Prop} [DecidablePred p] [DecidablePred q] {n : ℕ}
    (himp : ∀ i < n, p i → q i) : Nat.count p n = Nat.count q n ↔ ∀ i < n, q i → p i := by
  constructor
  · intro h
    rw [Nat.count_eq_card_filter_range, Nat.count_eq_card_filter_range] at h
    have hsub : (Finset.range n).filter p ⊆ (Finset.range n).filter q := by
      intro i hi
      rw [Finset.mem_filter, Finset.mem_range] at hi ⊢
      exact ⟨hi.1, himp i hi.1 hi.2⟩
    have heq := Finset.eq_of_subset_of_card_le hsub h.ge
    intro i hi hq
    have hmem : i ∈ (Finset.range n).filter q := Finset.mem_filter.mpr ⟨Finset.mem_range.mpr hi, hq⟩
    rw [← heq] at hmem
    exact (Finset.mem_filter.mp hmem).2
  · intro h
    exact le_antisymm (Nat.count_mono_left himp) (Nat.count_mono_left h)

/-- Two limits count the same points exactly when no point is between them. -/
theorem lateCount_eq_iff (bench : RealWorldBenchmark) (started : Int64) (clocks : ℕ → Int64)
    (a b : ℤ) (n : ℕ) :
    bench.lateCount started clocks a n = bench.lateCount started clocks b n ↔
      ∀ i < n, ¬ (min a b < bench.lateness started clocks i ∧
        bench.lateness started clocks i ≤ max a b) := by
  rcases le_total a b with hle | hle
  · rw [min_eq_left hle, max_eq_right hle, eq_comm, lateCount, lateCount,
      count_eq_count_iff fun i _ h => lt_of_le_of_lt hle h]
    simp only [not_and, not_le]
  · rw [min_eq_right hle, max_eq_left hle, lateCount, lateCount,
      count_eq_count_iff fun i _ h => lt_of_le_of_lt hle h]
    simp only [not_and, not_le]

/-- **When the misses are those of the threshold asked for**: exactly when the counter gets to the end,
nothing overflows, and no point is late by more than the one and not by more than the other of this
threshold and five microseconds. -/
theorem reports_iff {data : List DataPoint} (hdata : data ≠ []) (threshold : UInt32)
    (started : Int64) (clocks : ℕ → Int64) :
    (runRealWorld data threshold).Reports threshold started clocks ↔
      data.length < 2 ^ 32 ∧ (runRealWorld data threshold).InRange started clocks ∧
        ∀ i < data.length,
          ¬ (min (tolerance 5) (tolerance threshold) <
              (runRealWorld data threshold).lateness started clocks i ∧
            (runRealWorld data threshold).lateness started clocks i ≤
              max (tolerance 5) (tolerance threshold)) := by
  have hiff := lateCount_eq_iff (runRealWorld data threshold) started clocks (tolerance 5)
    (tolerance threshold) data.length
  have hfive : ((runRealWorld data threshold).nanoseconds.toNat : ℤ) = tolerance 5 := by
    have hwrap : ((5 * 1000 : UInt32).toNat : ℤ) = tolerance 5 := by decide
    exact hwrap
  constructor
  · rintro ⟨n, t, hrun, hreturned, -, hcount⟩
    have hlt : data.length < 2 ^ 32 := by
      by_contra hlong
      exact ne_returned_of_le (Nat.not_lt.mp hlong) hrun hreturned
    have hrange : (runRealWorld data threshold).InRange started clocks := by
      by_contra hout
      obtain ⟨m, s, hrun', hundefined⟩ := exists_undefined hdata hlt hout
      obtain rfl := runFor_unique hrun (step_of_returned hreturned) hrun'
        (step_of_undefined hundefined)
      rw [hreturned] at hundefined
      cases hundefined
    obtain ⟨m, s, hrun', hreturned', -, hcount'⟩ := run_end hdata hlt hrange
    rw [hfive] at hcount'
    obtain rfl := runFor_unique hrun (step_of_returned hreturned) hrun' (step_of_returned hreturned')
    exact ⟨hlt, hrange, hiff.mp (hcount'.symm.trans hcount)⟩
  · rintro ⟨hlt, hrange, hbetween⟩
    obtain ⟨n, t, hrun, hreturned, hsent, hcount⟩ := run_end hdata hlt hrange
    rw [hfive] at hcount
    exact ⟨n, t, hrun, hreturned, hsent, hcount.trans (hiff.mpr hbetween)⟩

/-- One point at the time 0. -/
def onePoint : List DataPoint := [⟨0, 0, 0, .ofList []⟩]

/-- A point that is late by seven microseconds, and a threshold of ten: it is reported as a miss. -/
theorem reports_iff_onePoint :
    (runRealWorld onePoint 10).Reports 10 0 (fun _ => 1000007000) ↔
      onePoint.length < 2 ^ 32 ∧ (runRealWorld onePoint 10).InRange 0 (fun _ => 1000007000) ∧
        ∀ i < onePoint.length,
          ¬ (min (tolerance 5) (tolerance 10) <
              (runRealWorld onePoint 10).lateness 0 (fun _ => 1000007000) i ∧
            (runRealWorld onePoint 10).lateness 0 (fun _ => 1000007000) i ≤
              max (tolerance 5) (tolerance 10)) :=
  reports_iff (List.cons_ne_nil _ _) 10 0 _

/-- It should not be one. -/
theorem not_reports_onePoint :
    ¬ ∀ (data : List DataPoint) (threshold : UInt32) (started : Int64) (clocks : ℕ → Int64),
      data ≠ [] → (runRealWorld data threshold).Reports threshold started clocks := by
  intro h
  obtain ⟨n, t, hrun, hreturned, -, hcount⟩ :=
    h onePoint 10 0 (fun _ => 1000007000) (List.cons_ne_nil _ _)
  -- the run ends after three calls
  have hend : runFor (runRealWorld onePoint 10).step (runRealWorld onePoint 10).start
      (answers 0 fun _ => 1000007000) 3 =
        some ⟨.returned true, 1000000000, 1, [⟨0, 0, .ofList []⟩]⟩ := rfl
  obtain rfl := runFor_unique hrun (step_of_returned hreturned) hend (step_of_returned rfl)
  revert hcount
  decide

end RealWorldBenchmark

end IpcPerformance
