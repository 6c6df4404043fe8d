import IpcPerformance.Benchmark.Readers
import IpcPerformance.Handler.Agreement

/-! # The payload of the writers

`run_client` of `src/benchmark/throughput.cpp` and `execution.cpp`: a loop that draws the bytes of a
`BinaryData` object, and a loop that writes this object again and again. The number of bytes is computed
from `size_` without looking at it first.

* `PayloadWriter.runFor_random` — the first loop, byte by byte.
* `HandlerClass.machine_write` — which bodies the handlers accept.
* `PayloadWriter.payload_iff` — the object is as it is to be, and made in finitely many steps, exactly
  when `size_` has room for the length field. -/

namespace IpcPerformance

/-! ## Building and writing -/

/-- `push_back`; no value when it throws, since the container is full. -/
def ByteString.pushBack (s : ByteString) (b : UInt8) : Option ByteString :=
  if h : (s.bytes ++ [b]).length < 2 ^ 63 then some ⟨s.bytes ++ [b], h⟩ else none

/-- What a call gives a writer. -/
inductive WriterAnswer
  /-- `rand` returns. -/
  | random (value : ℕ)
  /-- `write` returns; the clock before and after the call. -/
  | written (result : Bool) (before after : Int64)

/-- The call a writer makes next. -/
inductive WriterPhase
  /-- `rand`, for the byte `i` behind the bytes `b`. -/
  | building (i : UInt32) (b : ByteString)
  /-- `write`, for the iteration `i`. -/
  | writing (i : UInt32) (data : BinaryData)
  /-- None: `run_client` has returned. -/
  | returned (success : Bool)
  /-- None: `run_client` has ended otherwise. -/
  | ended (fault : Fault)

/-- The state of a writer. -/
structure WriterState (β : Type) where
  /-- The call that comes next. -/
  phase : WriterPhase
  /-- The fields that are filled in. -/
  fields : β

/-- The part of `run_client` in which the benchmarks differ: what is done with the clock around a
write. -/
structure PayloadWriter (β : Type) where
  /-- The new fields. -/
  written : β → (before after : Int64) → β

namespace PayloadWriter

variable {β : Type}

/-- `amount`: the package size must account for the size of the vector. The constant is a `size_t`, and
so is the difference. -/
def amount (size : UInt32) : UInt64 := size.toUInt64 - UInt64.ofNat BinaryData.headerSize

/-- The next round of the second loop. -/
def nextWrite (iterations i : UInt32) (data : BinaryData) : WriterPhase :=
  if i ≤ iterations then .writing i data else .returned true

/-- The next round of the first loop. -/
def nextByte (size iterations i : UInt32) (b : ByteString) : WriterPhase :=
  if i.toUInt64 < amount size then .building i b else nextWrite iterations 1 ⟨b⟩

/-- One call and what `run_client` does until the next one. -/
def step (w : PayloadWriter β) (size iterations : UInt32) (s : WriterState β) (answer : WriterAnswer) :
    Option (WriterState β) :=
  match s.phase, answer with
  | .building i b, .random value =>
      match b.pushBack (UInt8.ofNat (value % 256)) with
      | none => some { s with phase := .ended .uncaught }
      | some b => some { s with phase := nextByte size iterations (i + 1) b }
  | .writing i data, .written result before after =>
      let fields := w.written s.fields before after
      if result then some ⟨nextWrite iterations (i + 1) data, fields⟩
      else some ⟨.returned false, fields⟩
  | _, _ => none

/-- `run_client` begins. -/
def start (size iterations : UInt32) (fields : β) : WriterState β :=
  ⟨nextByte size iterations 0 .empty, fields⟩

/-- **What a call can do**: it is one byte more or one too many, or a write that succeeds or fails. -/
theorem step_cases {w : PayloadWriter β} {size iterations : UInt32} {s t : WriterState β}
    {answer : WriterAnswer} (h : w.step size iterations s answer = some t) :
    (∃ i b b' value, s.phase = .building i b ∧ b.pushBack value = some b' ∧
      t = { s with phase := nextByte size iterations (i + 1) b' }) ∨
    (∃ i b value, s.phase = .building i b ∧ b.pushBack value = none ∧
      t = { s with phase := .ended .uncaught }) ∨
    (∃ i data fields, s.phase = .writing i data ∧ t = ⟨nextWrite iterations (i + 1) data, fields⟩) ∨
    (∃ i data fields, s.phase = .writing i data ∧ t = ⟨.returned false, fields⟩) := by
  unfold step at h
  split at h
  · rename_i i b value hphase
    split at h
    · rename_i hfull
      exact .inr (.inl ⟨i, b, _, hphase, hfull, (Option.some.inj h).symm⟩)
    · rename_i b' hpush
      exact .inl ⟨i, b, b', _, hphase, hpush, (Option.some.inj h).symm⟩
  · rename_i i data result before after hphase
    cases result with
    | true => exact .inr (.inr (.inl ⟨i, data, _, hphase, (Option.some.inj h).symm⟩))
    | false => exact .inr (.inr (.inr ⟨i, data, _, hphase, (Option.some.inj h).symm⟩))
  · cases h

end PayloadWriter

/-- `ThroughputBenchmark::run_client`: it does not look at the clock. -/
def ThroughputBenchmark.runClient : PayloadWriter State where
  written s _ _ := s

/-- `ExecutionTimeBenchmark::run_client`; the fields are `execution_times_`. -/
def ExecutionTimeBenchmark.runClient : PayloadWriter (List UInt32) where
  written executionTimes before after :=
    let delta := after - before
    executionTimes ++ [toUnsignedInt delta]

/-! ## Which objects are accepted -/

namespace HandlerClass

/-- The room for a body that the `write` of a class tells `serialize`: D-Bus has its header elsewhere. -/
def room : HandlerClass → ℕ
  | dbus _ => bufferSize
  | _ => bufferSize - DataHeader.headerSize

/-- For the classes that put the header in front, the body has to leave room for it. -/
theorem fits_iff_le_room {o : DataObject} :
    o.Fits ↔ o.bodySize ≤ bufferSize - DataHeader.headerSize := by
  unfold DataObject.Fits bufferSize
  omega

/-- An empty queue accepts what fits. -/
theorem machine_write_empty (capacity : Capacity) (o : DataObject) (timestamp : Int64) :
    ∃ t, (Channel.machine capacity) .empty (.write o timestamp) =
      some (.written (decide (o.bodySize ≤ bufferSize - DataHeader.headerSize)), t) := by
  by_cases hfits : o.Fits
  · have hroom : capacity.holds (Channel.empty.queue ++
        [Channel.message (Channel.empty.lastId + 1) o timestamp]) = true :=
      capacity.holds_singleton ⟨hfits, Channel.empty.lastId + 1, timestamp, rfl⟩
    rw [Channel.machine, if_pos hfits, if_pos hroom, decide_eq_true (fits_iff_le_room.mp hfits)]
    exact ⟨_, rfl⟩
  · rw [Channel.machine, if_neg hfits, decide_eq_false (mt fits_iff_le_room.mpr hfits)]
    exact ⟨_, rfl⟩

/-- So does what simulates it. -/
theorem machine_write_of_simulates {T : Transport} {capacity : Capacity} {R : T.State → Channel → Prop}
    (h : Machine.Simulates T.machine (Channel.machine capacity) (Transport.OfWrites fun _ => True) R)
    {s : T.State} (hR : R s .empty) (o : DataObject) (timestamp : Int64) :
    ∃ s', T.machine s (.write o timestamp) =
      some (.written (decide (o.bodySize ≤ bufferSize - DataHeader.headerSize)), s') := by
  obtain ⟨t, hanswer⟩ := machine_write_empty capacity o timestamp
  obtain ⟨s', hstep, -⟩ := h.exists_answer (i := .write o timestamp) hR trivial hanswer
  exact ⟨s', hstep⟩

/-- So do the transports that deliver. -/
theorem machine_write_of_delivers {T : Transport} (d : T.Delivers fun _ => True)
    {room : T.Carrier → Bool} {capacity : Capacity} (hroom : d.Holds room capacity)
    {s : (T.limited room).State} (hstart : T.Start s.client s.server s.carrier) (o : DataObject)
    (timestamp : Int64) :
    ∃ s', (T.limited room).machine s (.write o timestamp) =
      some (.written (decide (o.bodySize ≤ bufferSize - DataHeader.headerSize)), s') :=
  machine_write_of_simulates (R := d.Rel room) (d.simulates hroom) (d.start hstart) o timestamp

/-- So do the rings. -/
theorem machine_write_of_ring {σ : Type} (calls : RingCalls σ) {s : calls.transport.State}
    (hstart : calls.transport.Start s.client s.server s.carrier) (o : DataObject)
    (timestamp : Int64) :
    ∃ s', calls.transport.machine s (.write o timestamp) =
      some (.written (decide (o.bodySize ≤ bufferSize - DataHeader.headerSize)), s') := by
  have hanswers : Machine.Simulates calls.transport.machine (Channel.machine slots)
      (Transport.OfWrites fun _ => True) calls.Rel := by
    intro s t call hrel _
    exact calls.simulates s t call hrel trivial
  exact machine_write_of_simulates hanswers (calls.rel_start hstart) o timestamp

/-- D-Bus accepts bodies that fit the buffer alone. -/
theorem machine_write_of_dbus {bus : BusRoute} {s : (DBus.unlimited bus).State}
    (hopen : DBus.isOpen s.client = true) (o : DataObject) (timestamp : Int64) :
    ∃ s', (DBus.unlimited bus).machine s (.write o timestamp) =
      some (.written (decide (o.bodySize ≤ bufferSize)), s') := by
  have hresult : (DBus.write s.client o timestamp .sent).result =
      decide (o.bodySize ≤ bufferSize) := by
    by_cases hle : o.bodySize ≤ bufferSize
    · obtain ⟨buffer, hwrite⟩ := DBus.write_of_le hopen timestamp hle
      rw [hwrite, decide_eq_true hle]
    · rw [DBus.write_of_lt hopen timestamp (Nat.lt_of_not_le hle), decide_eq_false hle]
  simp only [Transport.machine, DBus.unlimited, Transport.limited, DBus.transport, Option.filter,
    Bool.or_true, if_true, Option.map_some, hresult]
  exact ⟨_, rfl⟩

/-- The first write of a client is accepted exactly when the class has room for the body. -/
theorem machine_write (c : HandlerClass) {s : c.transport.State}
    (hstart : c.transport.Start s.client s.server s.carrier) (o : DataObject) (timestamp : Int64) :
    ∃ s', c.transport.machine s (.write o timestamp) =
      some (.written (decide (o.bodySize ≤ c.room)), s') := by
  cases c with
  | streamSocket buffer => exact machine_write_of_delivers _ (holds_stream buffer) hstart o timestamp
  | datagramSocket route => exact machine_write_of_delivers _ (holds_datagram route) hstart o timestamp
  | fifo buffer => exact machine_write_of_delivers _ (holds_fifo buffer) hstart o timestamp
  | messageQueue => exact machine_write_of_delivers _ holds_messageQueue hstart o timestamp
  | sharedMemory => exact machine_write_of_ring SharedMemory.calls hstart o timestamp
  | sharedFile => exact machine_write_of_ring SharedFile.calls hstart o timestamp
  | dbus bus =>
      exact machine_write_of_dbus hstart.1.1 o timestamp

end HandlerClass

/-- An object of so many bytes: wherever there is room for them it is serialized to them, and a `write`
that has no room for them returns false. -/
structure DataObject.ExactlySized (o : DataObject) (size : ℕ) : Prop where
  length_image : o.image.length = size
  serialize (mem : Memory UInt8) (buffer : ℕ) {room : ℕ} (hroom : room < 2 ^ 31) (h : size ≤ room) :
    o.serialize mem buffer room = ((size : ℤ), mem.write buffer o.image)
  write (c : HandlerClass) {s : c.transport.State}
    (hstart : c.transport.Start s.client s.server s.carrier) (timestamp : Int64) :
    ∃ s', c.transport.machine s (.write o timestamp) = some (.written (decide (size ≤ c.room)), s')

/-- An object is of the size of its body. -/
theorem DataObject.exactlySized (o : DataObject) : o.ExactlySized o.bodySize where
  length_image := o.length_image
  serialize mem buffer _ hroom h := o.serialize_of_le mem buffer hroom h
  write c _ hstart timestamp := c.machine_write hstart o timestamp

/-! ## The first loop -/

namespace PayloadWriter

variable {β : Type} {w : PayloadWriter β} {size iterations : UInt32} {fields : β}

/-- With room for the length field, the amount is what is left. -/
theorem toNat_amount (h : 4 ≤ size.toNat) : (amount size).toNat = size.toNat - 4 := by
  have hlt := size.toNat_lt
  have hfour : (UInt64.ofNat BinaryData.headerSize).toNat = 4 := rfl
  rw [amount, UInt64.toNat_sub, hfour, UInt32.toNat_toUInt64]
  omega

/-- Without it, the difference wraps. -/
theorem le_amount (h : size.toNat < 4) : 2 ^ 32 ≤ (amount size).toNat := by
  have hfour : (UInt64.ofNat BinaryData.headerSize).toNat = 4 := rfl
  rw [amount, UInt64.toNat_sub, hfour, UInt32.toNat_toUInt64]
  omega

/-- The counter is below the amount as a number. -/
theorem lt_amount_iff (i : UInt32) : i.toUInt64 < amount size ↔ i.toNat < (amount size).toNat := by
  rw [UInt64.lt_iff_toNat_lt, UInt32.toNat_toUInt64]

/-- After a wrap there is always another round. -/
theorem nextByte_of_lt (h : size.toNat < 4) (i : UInt32) (b : ByteString) :
    nextByte size iterations i b = .building i b := by
  have hlt := i.toNat_lt
  have hle := le_amount h
  exact if_pos ((lt_amount_iff i).mpr (by omega))

/-- A byte string below the limit takes one more byte. -/
theorem exists_pushBack {s : ByteString} (h : s.length + 1 < 2 ^ 63) (b : UInt8) :
    ∃ s', s.pushBack b = some s' ∧ s'.length = s.length + 1 := by
  have hlength : (s.bytes ++ [b]).length = s.length + 1 := List.length_append
  exact ⟨⟨s.bytes ++ [b], hlength.trans_lt h⟩, dif_pos (hlength.trans_lt h), hlength⟩

/-- A byte string that has taken a byte is longer by one. -/
theorem length_pushBack {s s' : ByteString} {b : UInt8} (h : s.pushBack b = some s') :
    s'.length = s.length + 1 := by
  unfold ByteString.pushBack at h
  split at h
  · obtain rfl := Option.some.inj h
    exact List.length_append
  · cases h

/-- **The first loop, byte by byte**: after `n` calls of `rand` there are `n` bytes. -/
theorem runFor_random (w : PayloadWriter β) (iterations : UInt32) (fields : β)
    (hsize : 4 ≤ size.toNat) (values : ℕ → ℕ) {n : ℕ} (hn : n ≤ size.toNat - 4) :
    ∃ b : ByteString, b.length = n ∧
      runFor (w.step size iterations) (start size iterations fields) (fun k => .random (values k)) n =
        some ⟨nextByte size iterations (UInt32.ofNat n) b, fields⟩ := by
  have hlt := size.toNat_lt
  induction n with
  | zero => exact ⟨.empty, rfl, rfl⟩
  | succ n ih =>
      obtain ⟨b, hlength, hrun⟩ := ih (by omega)
      -- there is a byte missing, so the loop is in its next round
      have hbuilding : nextByte size iterations (UInt32.ofNat n) b = .building (UInt32.ofNat n) b := by
        apply if_pos
        rw [lt_amount_iff, toNat_amount hsize, toNat_ofNat_length (by omega)]
        omega
      obtain ⟨b', hpush, hlength'⟩ :=
        exists_pushBack (s := b) (by omega) (UInt8.ofNat (values n % 256))
      refine ⟨b', by omega, ?_⟩
      refine runFor_succ_eq_some.mpr ⟨_, hrun, ?_⟩
      rw [hbuilding, UInt32.ofNat_add]
      simp only [step, hpush]
      rfl

/-! ## Runs of a writer -/

/-- The bytes so far, and the object when it is done, are as long as the counter and the amount say. -/
def Counts (size : UInt32) : WriterPhase → Prop
  | .building i b => i.toNat = b.length ∧ b.length < size.toNat - 4
  | .writing _ data => data.data.length = size.toNat - 4
  | _ => True

/-- A write leaves the object alone. -/
theorem counts_nextWrite {data : BinaryData} (h : data.data.length = size.toNat - 4) (i : UInt32) :
    Counts size (nextWrite iterations i data) := by
  unfold nextWrite
  split
  · exact h
  · trivial

/-- The loop goes on, or the object is complete. -/
theorem counts_nextByte (hsize : 4 ≤ size.toNat) {i : UInt32} {b : ByteString}
    (hi : i.toNat = b.length) (hle : b.length ≤ size.toNat - 4) :
    Counts size (nextByte size iterations i b) := by
  unfold nextByte
  split
  · rename_i hlt
    rw [lt_amount_iff, toNat_amount hsize, hi] at hlt
    exact ⟨hi, hlt⟩
  · rename_i hge
    rw [lt_amount_iff, toNat_amount hsize, hi] at hge
    have hcomplete : b.length = size.toNat - 4 := by omega
    exact counts_nextWrite hcomplete 1

/-- With room for the length field, every call keeps count. -/
theorem Counts.step (hsize : 4 ≤ size.toNat) {s t : WriterState β} {answer : WriterAnswer}
    (h : Counts size s.phase) (hstep : w.step size iterations s answer = some t) :
    Counts size t.phase := by
  have hlt := size.toNat_lt
  rcases step_cases hstep with ⟨i, b, b', value, hphase, hpush, rfl⟩ | ⟨i, b, value, -, -, rfl⟩ |
    ⟨i, data, fields, hphase, rfl⟩ | ⟨i, data, fields, -, rfl⟩
  · rw [hphase] at h
    obtain ⟨hi, hmore⟩ := h
    have hlength := length_pushBack hpush
    refine counts_nextByte hsize ?_ (by omega)
    have hone : (1 : UInt32).toNat = 1 := rfl
    rw [UInt32.toNat_add, hi, hlength, hone]
    exact Nat.mod_eq_of_lt (by omega)
  · trivial
  · rw [hphase] at h
    exact counts_nextWrite h (i + 1)
  · trivial

/-- Without it, the first loop is never left. -/
theorem building_of_lt (hsize : size.toNat < 4) {answers : List WriterAnswer} {t : WriterState β}
    (hrun : runAll (w.step size iterations) (start size iterations fields) answers = some t) :
    (∃ i b, t.phase = .building i b) ∨ t.phase = .ended .uncaught := by
  refine runAll_history
    (fun _ s => (∃ i b, s.phase = .building i b) ∨ s.phase = .ended .uncaught) ?_ ?_ hrun
  · exact .inl ⟨0, .empty, nextByte_of_lt hsize 0 .empty⟩
  · intro answers s answer t h hstep
    rcases step_cases hstep with ⟨i, b, b', value, -, -, rfl⟩ | ⟨i, b, value, -, -, rfl⟩ |
      ⟨i, data, fields, hphase, rfl⟩ | ⟨i, data, fields, hphase, rfl⟩
    · exact .inl ⟨i + 1, b', nextByte_of_lt hsize (i + 1) b'⟩
    · exact .inr rfl
    · -- there is nothing to write
      rw [hphase] at h
      rcases h with ⟨i', b, h⟩ | h <;> cases h
    · rw [hphase] at h
      rcases h with ⟨i', b, h⟩ | h <;> cases h

/-- The first loop is over. -/
def Built : WriterPhase → Prop
  | .writing _ _ => True
  | .returned _ => True
  | _ => False

/-- The payload is made as it is to be. -/
structure BuildsPayload (w : PayloadWriter β) (size iterations : UInt32) (fields : β) : Prop where
  /-- The first loop ends, whatever `rand` returns. -/
  ends (values : ℕ → ℕ) : ∃ n t,
    runFor (w.step size iterations) (start size iterations fields) (fun k => .random (values k)) n =
        some t ∧
      Built t.phase
  /-- Whatever is handed to `write` is serialized to `size_` bytes or refused. -/
  handed {answers : List WriterAnswer} {t : WriterState β} {i : UInt32} {data : BinaryData}
    (hrun : runAll (w.step size iterations) (start size iterations fields) answers = some t)
    (hwriting : t.phase = .writing i data) : (DataObject.binaryData data).ExactlySized size.toNat
  /-- A size without room for the length field is rejected. -/
  rejected (hsize : size.toNat < 4) {answers : List WriterAnswer} {t : WriterState β} {success : Bool}
    (hrun : runAll (w.step size iterations) (start size iterations fields) answers = some t)
    (hreturned : t.phase = .returned success) : success = false

/-- With room for the length field the payload is made. -/
theorem buildsPayload_of_le (w : PayloadWriter β) (iterations : UInt32) (fields : β)
    (hsize : 4 ≤ size.toNat) : w.BuildsPayload size iterations fields := by
  have hlt := size.toNat_lt
  constructor
  · intro values
    obtain ⟨b, -, hrun⟩ := runFor_random w iterations fields hsize values le_rfl
    refine ⟨_, _, hrun, ?_⟩
    -- the counter has reached the amount
    have hdone : ¬ (UInt32.ofNat (size.toNat - 4)).toUInt64 < amount size := by
      rw [lt_amount_iff, toNat_amount hsize, toNat_ofNat_length (by omega)]
      exact lt_irrefl _
    rw [nextByte, if_neg hdone, nextWrite]
    split <;> trivial
  · intro answers t i data hrun hwriting
    have hcounts : Counts size t.phase := by
      refine runAll_history (fun _ s => Counts size s.phase) ?_ ?_ hrun
      · exact counts_nextByte hsize rfl (Nat.zero_le _)
      · exact fun _ _ _ _ h hstep => Counts.step hsize h hstep
    rw [hwriting] at hcounts
    have hlength : data.data.length = size.toNat - 4 := hcounts
    have hbody : (DataObject.binaryData data).bodySize = size.toNat := by
      rw [DataObject.bodySize]
      omega
    rw [← hbody]
    exact DataObject.exactlySized _
  · intro hsmall
    exact absurd hsize (Nat.not_le.mpr hsmall)

/-- Without it the first loop does not end. -/
theorem not_buildsPayload_of_lt (w : PayloadWriter β) (iterations : UInt32) (fields : β)
    (hsize : size.toNat < 4) : ¬ w.BuildsPayload size iterations fields := by
  intro h
  obtain ⟨n, t, hrun, hbuilt⟩ := h.ends fun _ => 0
  rcases building_of_lt hsize hrun with ⟨i, b, hphase⟩ | hphase
  · rw [hphase] at hbuilt
    exact hbuilt
  · rw [hphase] at hbuilt
    exact hbuilt

/-- **When the payload is made as it is to be**, in both benchmarks: exactly when the size has room for
the length field. -/
theorem payload_iff (size iterations : UInt32) (executionTimes : List UInt32)
    (s : ThroughputBenchmark.State) :
    (ThroughputBenchmark.runClient.BuildsPayload size iterations s ↔ 4 ≤ size.toNat) ∧
      (ExecutionTimeBenchmark.runClient.BuildsPayload size iterations executionTimes ↔
        4 ≤ size.toNat) := by
  have hiff : ∀ {β : Type} (w : PayloadWriter β) (fields : β),
      w.BuildsPayload size iterations fields ↔ 4 ≤ size.toNat := by
    intro β w fields
    constructor
    · intro h
      by_contra hsmall
      exact not_buildsPayload_of_lt w iterations fields (Nat.lt_of_not_le hsmall) h
    · exact buildsPayload_of_le w iterations fields
  exact ⟨hiff _ s, hiff _ executionTimes⟩

/-- A package of three bytes is neither built nor rejected. -/
theorem not_payload_three :
    ¬ ∀ size iterations : UInt32,
      ThroughputBenchmark.runClient.BuildsPayload size iterations ThroughputBenchmark.initial ∧
        ExecutionTimeBenchmark.runClient.BuildsPayload size iterations [] := by
  intro h
  exact not_buildsPayload_of_lt _ 1 _ (by decide) (h 3 1).1

end PayloadWriter

end IpcPerformance
