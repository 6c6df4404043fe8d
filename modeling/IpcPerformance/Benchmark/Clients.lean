import IpcPerformance.Benchmark.Deadlines
import IpcPerformance.Benchmark.Payload

/-! # The writers of the four benchmarks

What the `run_client` of `src/benchmark/` hand to `write`, call by call. Before it starts, a client is
only known to write a list of parcels: how many objects there are and how large they are, but not what
`rand` puts into them.

* `ClientLoop.Sends` — a client works off its parcels one after the other, and stops at the first one
  that is rejected.
* `LatencyBenchmark.sends`, `PayloadWriter.sends`, `RealWorldBenchmark.sends` — the clients do so. -/

namespace IpcPerformance

/-! ## Parcels -/

/-- What is known of an object before it is made. -/
structure Parcel where
  /-- The number of bytes it is serialized to. -/
  size : ℕ
  /-- What it may be. -/
  Holds : DataObject → Prop
  /-- Whatever it is, it has this size. -/
  size_eq {o : DataObject} (h : Holds o) : o.bodySize = size

namespace Parcel

/-- There is room for it in a message. -/
def Fits (p : Parcel) : Prop := DataHeader.headerSize + p.size ≤ bufferSize

instance (p : Parcel) : Decidable p.Fits := inferInstanceAs (Decidable (_ ≤ _))

/-- The object of a parcel fits if the parcel does. -/
theorem fits_iff {p : Parcel} {o : DataObject} (h : p.Holds o) : o.Fits ↔ p.Fits := by
  rw [DataObject.Fits, Fits, p.size_eq h]

/-- Exactly this object. -/
def exactly (o : DataObject) : Parcel where
  size := o.bodySize
  Holds o' := o' = o
  size_eq h := h ▸ rfl

/-- A `BinaryData` object with so many bytes is serialized to these and the length field. -/
theorem bodySize_of_length {size : ℕ} (hsize : 4 ≤ size) {o : DataObject}
    (h : ∃ data : BinaryData, o = .binaryData data ∧ data.data.length = size - 4) :
    o.bodySize = size := by
  obtain ⟨data, rfl, hlength⟩ := h
  rw [DataObject.bodySize]
  omega

/-- A `BinaryData` object that is serialized to `size` bytes. -/
def binaryData (size : ℕ) (hsize : 4 ≤ size) : Parcel where
  size
  Holds o := ∃ data : BinaryData, o = .binaryData data ∧ data.data.length = size - 4
  size_eq := bodySize_of_length hsize

end Parcel

/-! ## Clients -/

/-- A client, driven by what its calls return. -/
structure ClientLoop (α γ : Type) where
  /-- The object it hands to `write`, if that is the call that comes next. -/
  object : γ → Option DataObject
  /-- What `write` has returned, if the answer is one of `write`. -/
  result : α → Option Bool
  /-- One call and what is done until the next one. -/
  step : γ → α → Option γ
  /-- What `run_client` has returned. -/
  returned : γ → Option Bool

/-- A client that works off parcels: `Todo` are those it has not written yet, and `work` bounds the
calls it still makes. -/
structure ClientLoop.Sends {α γ : Type} (loop : ClientLoop α γ) (InRange : α → Prop)
    (Todo : γ → List Parcel → Prop) (work : γ → ℕ) : Prop where
  /-- A call that is no write leaves the parcels alone. -/
  prepare {s t : γ} {a : α} {parcels : List Parcel} (h : Todo s parcels) (ha : InRange a)
    (hobject : loop.object s = none) (hstep : loop.step s a = some t) :
    Todo t parcels ∧ work t < work s
  /-- What is written is the next parcel. -/
  object {s : γ} {o : DataObject} {parcels : List Parcel} (h : Todo s parcels)
    (hobject : loop.object s = some o) : ∃ p rest, parcels = p :: rest ∧ p.Holds o
  /-- If it is accepted, the others are left. -/
  accepted {s t : γ} {a : α} {o : DataObject} {p : Parcel} {rest : List Parcel}
    (h : Todo s (p :: rest)) (hobject : loop.object s = some o) (hresult : loop.result a = some true)
    (hstep : loop.step s a = some t) : Todo t rest ∧ work t < work s
  /-- If it is rejected, the client gives up. -/
  rejected {s t : γ} {a : α} {o : DataObject} {parcels : List Parcel} (h : Todo s parcels)
    (hobject : loop.object s = some o) (hresult : loop.result a = some false)
    (hstep : loop.step s a = some t) : loop.returned t = some false ∧ work t < work s
  /-- It goes on with whatever `write` returns. -/
  exists_written {s : γ} {o : DataObject} {parcels : List Parcel} (h : Todo s parcels)
    (hobject : loop.object s = some o) (result : Bool) :
    ∃ a t, InRange a ∧ loop.result a = some result ∧ loop.step s a = some t
  /-- It goes on until it has returned. -/
  exists_prepared {s : γ} {parcels : List Parcel} (h : Todo s parcels)
    (hobject : loop.object s = none) (hrunning : loop.returned s = none) :
    ∃ a t, InRange a ∧ loop.step s a = some t
  /-- It returns true when nothing is left. -/
  ends {s : γ} {parcels : List Parcel} {success : Bool} (h : Todo s parcels)
    (hreturned : loop.returned s = some success) : success = true ∧ parcels = []
  /-- Then it makes no more calls. -/
  halts {s : γ} {success : Bool} (hreturned : loop.returned s = some success) :
    loop.object s = none ∧ ∀ a, loop.step s a = none

/-! ## Rounds that are counted -/

section Counted

variable {iterations : UInt32} (hbound : iterations.toNat + 1 < 2 ^ 32) {m : ℕ}

include hbound

/-- With `m` rounds left there is another one if `m` is not zero. -/
theorem round_le_iff (hm : m ≤ iterations.toNat) :
    UInt32.ofNat (iterations.toNat + 1 - m) ≤ iterations ↔ 0 < m := by
  rw [UInt32.le_iff_toNat_le, toNat_ofNat_length (by omega)]
  omega

/-- The number of a round, and how many are left with it. -/
theorem left_round (hm : m ≤ iterations.toNat) :
    iterations.toNat + 1 - (UInt32.ofNat (iterations.toNat + 1 - m)).toNat = m := by
  rw [toNat_ofNat_length (by omega)]
  omega

omit hbound in
/-- The number of the next round. -/
theorem round_succ (hm : m + 1 ≤ iterations.toNat) :
    UInt32.ofNat (iterations.toNat + 1 - (m + 1)) + 1 = UInt32.ofNat (iterations.toNat + 1 - m) := by
  have hsub : iterations.toNat + 1 - m = iterations.toNat + 1 - (m + 1) + 1 := by omega
  rw [hsub, UInt32.ofNat_add]
  rfl

end Counted

/-! ## Latency -/

namespace LatencyBenchmark

/-- The call the client makes next. -/
inductive ClientPhase
  /-- `write`, for the iteration `i`. -/
  | writing (i : UInt32)
  /-- None: `run_client` has returned. -/
  | returned (success : Bool)

/-- The next round of the loop. -/
def nextRound (iterations i : UInt32) : ClientPhase :=
  if i ≤ iterations then .writing i else .returned true

/-- `LatencyBenchmark::run_client`, driven by what `write` returns. -/
def runClient (iterations : UInt32) : ClientLoop Bool ClientPhase where
  object
    | .writing _ => some .ping
    | .returned _ => none
  result := some
  step
    | .writing i, result =>
        some (if result then nextRound iterations (i + 1) else .returned false)
    | .returned _, _ => none
  returned
    | .writing _ => none
    | .returned success => some success

/-- With `m` rounds left it is in the round that says so. -/
def Todo (iterations : UInt32) (s : ClientPhase) (parcels : List Parcel) : Prop :=
  ∃ m ≤ iterations.toNat, parcels = List.replicate m (.exactly .ping) ∧
    s = nextRound iterations (UInt32.ofNat (iterations.toNat + 1 - m))

/-- The rounds left. -/
def work (iterations : UInt32) : ClientPhase → ℕ
  | .writing i => iterations.toNat + 1 - i.toNat
  | .returned _ => 0

section Rounds

variable {iterations : UInt32} (hbound : iterations.toNat + 1 < 2 ^ 32) {m : ℕ}

include hbound

/-- There is a round left. -/
theorem nextRound_of_pos (hm : m + 1 ≤ iterations.toNat) :
    nextRound iterations (UInt32.ofNat (iterations.toNat + 1 - (m + 1))) =
      .writing (UInt32.ofNat (iterations.toNat + 1 - (m + 1))) :=
  if_pos ((round_le_iff hbound hm).mpr (Nat.succ_pos m))

/-- There is none. -/
theorem nextRound_zero :
    nextRound iterations (UInt32.ofNat (iterations.toNat + 1 - 0)) = .returned true :=
  if_neg fun h => absurd ((round_le_iff hbound (Nat.zero_le _)).mp h) (lt_irrefl 0)

/-- The work of a round. -/
theorem work_nextRound (hm : m ≤ iterations.toNat) :
    work iterations (nextRound iterations (UInt32.ofNat (iterations.toNat + 1 - m))) = m := by
  cases m with
  | zero => rw [nextRound_zero hbound, work]
  | succ m => rw [nextRound_of_pos hbound hm, work, left_round hbound hm]

/-- A client with an object to write is in a round. -/
theorem Todo.writing {s : ClientPhase} {o : DataObject} {parcels : List Parcel}
    (h : Todo iterations s parcels) (hobject : (runClient iterations).object s = some o) :
    o = .ping ∧ ∃ m, m + 1 ≤ iterations.toNat ∧
      parcels = .exactly .ping :: List.replicate m (.exactly .ping) ∧
      s = .writing (UInt32.ofNat (iterations.toNat + 1 - (m + 1))) := by
  obtain ⟨m, hm, rfl, rfl⟩ := h
  cases m with
  | zero =>
      rw [nextRound_zero hbound] at hobject
      cases hobject
  | succ m =>
      rw [nextRound_of_pos hbound hm] at hobject ⊢
      exact ⟨(Option.some.inj hobject).symm, m, hm, List.replicate_succ, rfl⟩

end Rounds

/-- **The client of the latency benchmark writes its pings.** -/
theorem sends {iterations : UInt32} (hbound : iterations.toNat + 1 < 2 ^ 32) :
    (runClient iterations).Sends (fun _ => True) (Todo iterations) (work iterations) where
  prepare {s _ _ _} h _ hobject hstep := by
    cases s with
    | writing i => cases hobject
    | returned success => cases hstep
  object h hobject := by
    obtain ⟨rfl, m, -, rfl, -⟩ := h.writing hbound hobject
    exact ⟨_, _, rfl, rfl⟩
  accepted h hobject hresult hstep := by
    obtain ⟨rfl, m, hm, hparcels, rfl⟩ := h.writing hbound hobject
    obtain ⟨rfl, rfl⟩ := List.cons.inj hparcels
    cases hresult
    cases hstep
    rw [if_pos rfl, round_succ hm]
    refine ⟨⟨m, by omega, rfl, rfl⟩, ?_⟩
    rw [work_nextRound hbound (by omega), work, left_round hbound hm]
    exact Nat.lt_succ_self m
  rejected h hobject hresult hstep := by
    obtain ⟨rfl, m, hm, -, rfl⟩ := h.writing hbound hobject
    cases hresult
    cases hstep
    refine ⟨rfl, ?_⟩
    rw [work, left_round hbound hm]
    exact Nat.succ_pos m
  exists_written h hobject result := by
    obtain ⟨-, m, -, -, rfl⟩ := h.writing hbound hobject
    exact ⟨result, _, trivial, rfl, rfl⟩
  exists_prepared {s _} _ hobject hrunning := by
    cases s with
    | writing i => cases hobject
    | returned success => cases hrunning
  ends h hreturned := by
    obtain ⟨m, hm, rfl, rfl⟩ := h
    cases m with
    | zero =>
        rw [nextRound_zero hbound] at hreturned
        exact ⟨(Option.some.inj hreturned).symm, rfl⟩
    | succ m =>
        rw [nextRound_of_pos hbound hm] at hreturned
        cases hreturned
  halts {s _} hreturned := by
    cases s with
    | writing i => cases hreturned
    | returned success => exact ⟨rfl, fun _ => rfl⟩

end LatencyBenchmark

/-! ## Throughput and execution time -/

namespace PayloadWriter

variable {β : Type}

/-- `run_client` of the two benchmarks, driven by what its calls return. -/
def client (w : PayloadWriter β) (size iterations : UInt32) : ClientLoop WriterAnswer (WriterState β) where
  object s :=
    match s.phase with
    | .writing _ data => some (.binaryData data)
    | _ => none
  result
    | .written result _ _ => some result
    | .random _ => none
  step := w.step size iterations
  returned s :=
    match s.phase with
    | .returned success => some success
    | _ => none

/-- All objects are still to be written while the payload is made; then it is in the round that says how
many are left. -/
def Todo {size : UInt32} (hsize : 4 ≤ size.toNat) (iterations : UInt32) (s : WriterState β)
    (parcels : List Parcel) : Prop :=
  (∃ i b, s.phase = .building i b ∧ Counts size s.phase ∧
    parcels = List.replicate iterations.toNat (.binaryData size.toNat hsize)) ∨
  ∃ m data, m ≤ iterations.toNat ∧ data.data.length = size.toNat - 4 ∧
    parcels = List.replicate m (.binaryData size.toNat hsize) ∧
    s.phase = nextWrite iterations (UInt32.ofNat (iterations.toNat + 1 - m)) data

/-- The bytes left and the rounds left. -/
def work (size iterations : UInt32) (s : WriterState β) : ℕ :=
  match s.phase with
  | .building i _ => size.toNat - i.toNat + iterations.toNat + 1
  | .writing i _ => iterations.toNat + 1 - i.toNat
  | _ => 0

section Rounds

variable {size iterations : UInt32} (hbound : iterations.toNat + 1 < 2 ^ 32) {m : ℕ}

include hbound

/-- There is a round left. -/
theorem nextWrite_of_pos (hm : m + 1 ≤ iterations.toNat) (data : BinaryData) :
    nextWrite iterations (UInt32.ofNat (iterations.toNat + 1 - (m + 1))) data =
      .writing (UInt32.ofNat (iterations.toNat + 1 - (m + 1))) data :=
  if_pos ((round_le_iff hbound hm).mpr (Nat.succ_pos m))

/-- There is none. -/
theorem nextWrite_zero (data : BinaryData) :
    nextWrite iterations (UInt32.ofNat (iterations.toNat + 1 - 0)) data = .returned true :=
  if_neg fun h => absurd ((round_le_iff hbound (Nat.zero_le _)).mp h) (lt_irrefl 0)

/-- The work of a round. -/
theorem work_nextWrite (hm : m ≤ iterations.toNat) (data : BinaryData) (fields : β) :
    work size iterations
      ⟨nextWrite iterations (UInt32.ofNat (iterations.toNat + 1 - m)) data, fields⟩ = m := by
  cases m with
  | zero => simp only [work, nextWrite_zero hbound]
  | succ m => simp only [work, nextWrite_of_pos hbound hm, left_round hbound hm]

variable {w : PayloadWriter β} {hsize : 4 ≤ size.toNat}

/-- **Where a client can be**: it makes its payload, it is in a round, or it has returned true. -/
theorem Todo.cases {s : WriterState β} {parcels : List Parcel} (h : Todo hsize iterations s parcels) :
    (∃ i b, s.phase = .building i b ∧ i.toNat = b.length ∧ b.length < size.toNat - 4 ∧
      parcels = List.replicate iterations.toNat (.binaryData size.toNat hsize)) ∨
    (∃ m data, m + 1 ≤ iterations.toNat ∧ data.data.length = size.toNat - 4 ∧
      s.phase = .writing (UInt32.ofNat (iterations.toNat + 1 - (m + 1))) data ∧
      parcels = .binaryData size.toNat hsize :: List.replicate m (.binaryData size.toNat hsize)) ∨
    (s.phase = .returned true ∧ parcels = []) := by
  rcases h with ⟨i, b, hphase, hcounts, rfl⟩ | ⟨m, data, hm, hlength, rfl, hphase⟩
  · rw [hphase] at hcounts
    exact .inl ⟨i, b, hphase, hcounts.1, hcounts.2, rfl⟩
  · cases m with
    | zero => exact .inr (.inr ⟨hphase.trans (nextWrite_zero hbound data), rfl⟩)
    | succ m =>
        exact .inr (.inl ⟨m, data, hm, hlength, hphase.trans (nextWrite_of_pos hbound hm data),
          List.replicate_succ⟩)

/-- A client with an object to write is in a round. -/
theorem Todo.writing {s : WriterState β} {o : DataObject} {parcels : List Parcel}
    (h : Todo hsize iterations s parcels) (hobject : (w.client size iterations).object s = some o) :
    ∃ m data, m + 1 ≤ iterations.toNat ∧ data.data.length = size.toNat - 4 ∧ o = .binaryData data ∧
      s.phase = .writing (UInt32.ofNat (iterations.toNat + 1 - (m + 1))) data ∧
      parcels =
        .binaryData size.toNat hsize :: List.replicate m (.binaryData size.toNat hsize) := by
  rcases h.cases hbound with ⟨i, b, hphase, -⟩ | ⟨m, data, hm, hlength, hphase, hparcels⟩ | ⟨hphase, -⟩
  · simp only [client, hphase] at hobject
    cases hobject
  · simp only [client, hphase] at hobject
    exact ⟨m, data, hm, hlength, (Option.some.inj hobject).symm, hphase, hparcels⟩
  · simp only [client, hphase] at hobject
    cases hobject

end Rounds

/-- A byte more: the next one, or the first round. -/
theorem todo_nextByte {size iterations : UInt32} (hbound : iterations.toNat + 1 < 2 ^ 32)
    (hsize : 4 ≤ size.toNat) {i : UInt32} {b : ByteString} (hi : i.toNat = b.length)
    (hle : b.length ≤ size.toNat - 4) (fields : β) :
    Todo hsize iterations ⟨nextByte size iterations i b, fields⟩
        (List.replicate iterations.toNat (.binaryData size.toNat hsize)) ∧
      work size iterations ⟨nextByte size iterations i b, fields⟩ ≤
        size.toNat - i.toNat + iterations.toNat + 1 := by
  by_cases hmore : i.toUInt64 < amount size
  · have hphase : nextByte size iterations i b = .building i b := if_pos hmore
    rw [lt_amount_iff, toNat_amount hsize, hi] at hmore
    rw [hphase]
    exact ⟨.inl ⟨i, b, rfl, ⟨hi, hmore⟩, rfl⟩, le_rfl⟩
  · have hphase : nextByte size iterations i b = nextWrite iterations 1 ⟨b⟩ := if_neg hmore
    have hone : (1 : UInt32) = UInt32.ofNat (iterations.toNat + 1 - iterations.toNat) := by
      rw [Nat.add_sub_cancel_left]
      rfl
    rw [lt_amount_iff, toNat_amount hsize, hi] at hmore
    rw [hphase, hone]
    refine ⟨.inr ⟨iterations.toNat, ⟨b⟩, le_rfl, le_antisymm hle (Nat.not_lt.mp hmore), rfl, rfl⟩, ?_⟩
    rw [work_nextWrite hbound le_rfl]
    omega

/-- A call of `rand` adds a byte, since there is room for it. -/
theorem todo_random {w : PayloadWriter β} {size iterations : UInt32}
    (hbound : iterations.toNat + 1 < 2 ^ 32) (hsize : 4 ≤ size.toNat) {s : WriterState β} {i : UInt32}
    {b : ByteString} (hphase : s.phase = .building i b) (hi : i.toNat = b.length)
    (hmore : b.length < size.toNat - 4) (value : ℕ) :
    ∃ t, w.step size iterations s (.random value) = some t ∧
      Todo hsize iterations t
        (List.replicate iterations.toNat (.binaryData size.toNat hsize)) ∧
      work size iterations t < work size iterations s := by
  have hlt := size.toNat_lt
  obtain ⟨b', hpush, hlength⟩ := exists_pushBack (s := b) (by omega) (UInt8.ofNat (value % 256))
  have hone : (1 : UInt32).toNat = 1 := rfl
  have hnext : (i + 1).toNat = i.toNat + 1 := by
    rw [UInt32.toNat_add, hone]
    exact Nat.mod_eq_of_lt (by omega)
  have hi' : (i + 1).toNat = b'.length := by rw [hnext, hlength, hi]
  obtain ⟨htodo, hwork⟩ := todo_nextByte hbound hsize hi' (by omega) s.fields
  refine ⟨_, by simp only [step, hphase, hpush], htodo, ?_⟩
  have hbefore : work size iterations s = size.toNat - i.toNat + iterations.toNat + 1 := by
    simp only [work, hphase]
  omega

/-- **The clients of the two benchmarks write their payloads**, if the size has room for the length
field. -/
theorem sends (w : PayloadWriter β) {size iterations : UInt32}
    (hbound : iterations.toNat + 1 < 2 ^ 32) (hsize : 4 ≤ size.toNat) :
    (w.client size iterations).Sends (fun _ => True) (Todo hsize iterations)
      (work size iterations) where
  prepare {s t a _} h _ hobject hstep := by
    rcases h.cases hbound with ⟨i, b, hphase, hi, hmore, rfl⟩ | ⟨m, data, -, -, hphase, -⟩ | ⟨hphase, -⟩
    · cases a with
      | random value =>
          obtain ⟨t', hstep', htodo, hwork⟩ := todo_random (w := w) hbound hsize hphase hi hmore value
          obtain rfl := Option.some.inj (hstep.symm.trans hstep')
          exact ⟨htodo, hwork⟩
      | written result before after =>
          simp only [client, step, hphase] at hstep
          cases hstep
    · simp only [client, hphase] at hobject
      cases hobject
    · simp only [client, step, hphase] at hstep
      cases hstep
  object h hobject := by
    obtain ⟨m, data, -, hlength, rfl, -, rfl⟩ := h.writing hbound hobject
    exact ⟨_, _, rfl, data, rfl, hlength⟩
  accepted {s t a _ _ _} h hobject hresult hstep := by
    obtain ⟨m, data, hm, hlength, -, hphase, hparcels⟩ := h.writing hbound hobject
    obtain ⟨rfl, rfl⟩ := List.cons.inj hparcels
    cases a with
    | random value => cases hresult
    | written result before after =>
        cases hresult
        simp only [client, step, hphase, if_true] at hstep
        obtain rfl := Option.some.inj hstep
        rw [round_succ hm]
        refine ⟨.inr ⟨m, data, by omega, hlength, rfl, rfl⟩, ?_⟩
        rw [work_nextWrite hbound (by omega)]
        simp only [work, hphase, left_round hbound hm]
        exact Nat.lt_succ_self m
  rejected {s t a _ _} h hobject hresult hstep := by
    obtain ⟨m, data, hm, -, -, hphase, -⟩ := h.writing hbound hobject
    cases a with
    | random value => cases hresult
    | written result before after =>
        cases hresult
        simp only [client, step, hphase, Bool.false_eq_true, if_false] at hstep
        obtain rfl := Option.some.inj hstep
        refine ⟨rfl, ?_⟩
        simp only [work, hphase, left_round hbound hm]
        exact Nat.succ_pos m
  exists_written {s _ _} h hobject result := by
    obtain ⟨m, data, -, -, -, hphase, -⟩ := h.writing hbound hobject
    have hstep : ∃ t, w.step size iterations s (.written result 0 0) = some t := by
      simp only [step, hphase]
      cases result with
      | false => exact ⟨_, rfl⟩
      | true => exact ⟨_, rfl⟩
    obtain ⟨t, hstep⟩ := hstep
    exact ⟨.written result 0 0, t, trivial, rfl, hstep⟩
  exists_prepared {s _} h hobject hrunning := by
    rcases h.cases hbound with ⟨i, b, hphase, hi, hmore, -⟩ | ⟨m, data, -, -, hphase, -⟩ | ⟨hphase, -⟩
    · obtain ⟨t, hstep, -, -⟩ := todo_random (w := w) hbound hsize hphase hi hmore 0
      exact ⟨.random 0, t, trivial, hstep⟩
    · simp only [client, hphase] at hobject
      cases hobject
    · simp only [client, hphase] at hrunning
      cases hrunning
  ends {s _ _} h hreturned := by
    rcases h.cases hbound with ⟨i, b, hphase, -⟩ | ⟨m, data, -, -, hphase, -⟩ | ⟨hphase, hparcels⟩
    · simp only [client, hphase] at hreturned
      cases hreturned
    · simp only [client, hphase] at hreturned
      cases hreturned
    · simp only [client, hphase] at hreturned
      exact ⟨(Option.some.inj hreturned).symm, hparcels⟩
  halts {s _} hreturned := by
    rcases hphase : s.phase with ⟨i, b⟩ | ⟨i, data⟩ | success | fault
    · simp only [client, hphase] at hreturned
      cases hreturned
    · simp only [client, hphase] at hreturned
      cases hreturned
    · exact ⟨by simp only [client, hphase], fun a => by simp only [client, step, hphase]⟩
    · simp only [client, hphase] at hreturned
      cases hreturned

end PayloadWriter

/-! ## Real world -/

namespace RealWorldBenchmark

/-- A time since the epoch that is neither negative nor some decades away: no difference or sum of such
times overflows. -/
def Plausible (time : Int64) : Prop := 0 ≤ time.toInt ∧ time.toInt < 2 ^ 61

instance (time : Int64) : Decidable (Plausible time) := inferInstanceAs (Decidable (_ ∧ _))

/-- `RealWorldBenchmark::run_client`, driven by what its calls return. -/
def client (bench : RealWorldBenchmark) : ClientLoop ClientAnswer ClientState where
  object s :=
    match s.phase with
    | .writing i => bench.data[i.toNat]?.map fun point => .javaSymbol point.symbol
    | _ => none
  result
    | .written result => some result
    | .timestamp _ => none
  step := bench.step
  returned s :=
    match s.phase with
    | .returned success => some success
    | _ => none

/-- The clock is plausible. -/
def ClockInRange : ClientAnswer → Prop
  | .timestamp now => Plausible now
  | .written _ => True

/-- The symbols from a point on. -/
def parcelsFrom (bench : RealWorldBenchmark) (j : ℕ) : List Parcel :=
  (bench.data.drop j).map fun point => .exactly (.javaSymbol point.symbol)

/-- A data set that the client gets through. -/
structure Proper (bench : RealWorldBenchmark) : Prop where
  nonempty : bench.data ≠ []
  length_lt : bench.data.length < 2 ^ 32
  times : ∀ point ∈ bench.data, Plausible point.time

/-- A shift between plausible times. -/
def Shift (delta : Int64) : Prop := -2 ^ 62 ≤ delta.toInt ∧ delta.toInt ≤ 2 ^ 62

/-- Where the client is, and what it has still to write. -/
inductive Todo (bench : RealWorldBenchmark) : ClientState → List Parcel → Prop
  | starting {s : ClientState} (h : s.phase = .starting) : Todo bench s (bench.parcelsFrom 0)
  | timing {s : ClientState} {j : ℕ} (hj : j < bench.data.length) (h : s.phase = .timing (UInt32.ofNat j))
      (hdelta : Shift s.delta) : Todo bench s (bench.parcelsFrom j)
  | writing {s : ClientState} {j : ℕ} (hj : j < bench.data.length)
      (h : s.phase = .writing (UInt32.ofNat j)) (hdelta : Shift s.delta) :
      Todo bench s (bench.parcelsFrom j)
  | returned {s : ClientState} (h : s.phase = .returned true) : Todo bench s []

/-- A call at the start, and two for each point left. -/
def work (bench : RealWorldBenchmark) (s : ClientState) : ℕ :=
  match s.phase with
  | .starting => 2 * bench.data.length + 1
  | .timing i => 2 * (bench.data.length - i.toNat)
  | .writing i => 2 * (bench.data.length - i.toNat) - 1
  | _ => 0

section Sends

variable {bench : RealWorldBenchmark}

/-- The next point is the first one left. -/
theorem parcelsFrom_of_lt {j : ℕ} (hj : j < bench.data.length) :
    bench.parcelsFrom j =
      .exactly (.javaSymbol bench.data[j].symbol) :: bench.parcelsFrom (j + 1) := by
  rw [parcelsFrom, List.drop_eq_getElem_cons hj]
  rfl

/-- A round for the next point, or the end. -/
theorem todo_nextPoint (hproper : bench.Proper) {j : ℕ} (hj : j ≤ bench.data.length) {s : ClientState}
    (h : s.phase = bench.nextPoint (UInt32.ofNat j)) (hdelta : Shift s.delta) :
    Todo bench s (bench.parcelsFrom j) ∧ work bench s = 2 * (bench.data.length - j) := by
  have hlt := hproper.length_lt
  rcases hj.lt_or_eq with hmore | rfl
  · rw [nextPoint_of_lt hmore hlt] at h
    refine ⟨.timing hmore h hdelta, ?_⟩
    simp only [work, h, toNat_ofNat_length (hmore.trans hlt)]
  · rw [nextPoint_length hlt] at h
    have hnone : bench.parcelsFrom bench.data.length = [] := by
      rw [parcelsFrom, List.drop_length, List.map_nil]
    rw [hnone]
    refine ⟨.returned h, ?_⟩
    simp only [work, h, Nat.sub_self, Nat.mul_zero]

/-- The first clock: the shift is one between plausible times. -/
theorem todo_starting (hproper : bench.Proper) {s : ClientState} (h : s.phase = .starting) {now : Int64}
    (hnow : Plausible now) :
    ∃ t, bench.step s (.timestamp now) = some t ∧ Todo bench t (bench.parcelsFrom 0) ∧
      work bench t < work bench s := by
  have hfirst := hproper.times _ (List.head_mem hproper.nonempty)
  have hdelay : startDelay.toInt = 1000000000 := rfl
  obtain ⟨elapsed, helapsed, hexact⟩ :=
    exists_checked (n := now.toInt - (bench.data.head hproper.nonempty).time.toInt)
      (by unfold Fits64 Plausible at *; omega)
  obtain ⟨delta, hdelta, hexact'⟩ := exists_checked (n := elapsed.toInt + startDelay.toInt)
    (by unfold Fits64 Plausible at *; omega)
  have hshift : shift (bench.data.head hproper.nonempty).time now = some delta := by
    rw [shift, helapsed, Option.bind_some, hdelta]
  refine ⟨{ s with phase := bench.nextPoint 0, delta }, ?_, ?_⟩
  · simp only [step, h, List.head?_eq_some_head hproper.nonempty, hshift]
  · obtain ⟨htodo, hwork⟩ := todo_nextPoint hproper (Nat.zero_le _)
      (s := { s with phase := bench.nextPoint 0, delta }) rfl
      (by unfold Shift Plausible at *; simp only; omega)
    refine ⟨htodo, ?_⟩
    rw [hwork]
    simp only [work, h, Nat.sub_zero]
    exact Nat.lt_succ_self _

/-- The clock of a point. -/
theorem todo_timing (hproper : bench.Proper) {s : ClientState} {j : ℕ} (hj : j < bench.data.length)
    (h : s.phase = .timing (UInt32.ofNat j)) (hdelta : Shift s.delta) {now : Int64}
    (hnow : Plausible now) :
    ∃ t, bench.step s (.timestamp now) = some t ∧ Todo bench t (bench.parcelsFrom j) ∧
      work bench t < work bench s := by
  have hindex := toNat_ofNat_length (hj.trans hproper.length_lt)
  have hpoint := hproper.times _ (List.getElem_mem hj)
  have hthreshold := bench.nanoseconds.toNat_lt
  obtain ⟨time, htime, -⟩ := exists_checked (n := bench.data[j].time.toInt + s.delta.toInt)
    (by unfold Fits64 Plausible Shift at *; omega)
  obtain ⟨late, hlate, -⟩ := exists_checked (n := now.toInt - bench.nanoseconds.toNat)
    (by unfold Fits64 Plausible at *; omega)
  refine ⟨{ s with
    phase := .writing (UInt32.ofNat j), misses := if time < late then s.misses + 1 else s.misses },
    ?_, .writing hj rfl hdelta, ?_⟩
  · simp only [step, h, hindex, List.getElem?_eq_getElem hj, htime, hlate]
  · simp only [work, h, hindex]
    omega

/-- The write of a point. -/
theorem todo_writing (hproper : bench.Proper) {s : ClientState} {j : ℕ} (hj : j < bench.data.length)
    (h : s.phase = .writing (UInt32.ofNat j)) (hdelta : Shift s.delta) (result : Bool) :
    ∃ t, bench.step s (.written result) = some t ∧ work bench t < work bench s ∧
      (if result then Todo bench t (bench.parcelsFrom (j + 1)) else t.phase = .returned false) := by
  have hindex := toNat_ofNat_length (hj.trans hproper.length_lt)
  have hwork : work bench s = 2 * (bench.data.length - j) - 1 := by
    simp only [work, h, hindex]
  have hnext : UInt32.ofNat j + 1 = UInt32.ofNat (j + 1) := by
    rw [UInt32.ofNat_add]
    rfl
  cases result with
  | false =>
      refine ⟨{ s with phase := .returned false, sent := s.sent ++ [bench.data[j].symbol] }, ?_, ?_, rfl⟩
      · simp only [step, h, hindex, List.getElem?_eq_getElem hj, Bool.false_eq_true, if_false]
      · rw [hwork]
        simp only [work]
        omega
  | true =>
      obtain ⟨htodo, hless⟩ := todo_nextPoint hproper hj
        (s := { s with
          phase := bench.nextPoint (UInt32.ofNat (j + 1)), sent := s.sent ++ [bench.data[j].symbol] })
        rfl hdelta
      refine ⟨_, ?_, ?_, htodo⟩
      · simp only [step, h, hindex, List.getElem?_eq_getElem hj, if_true, hnext]
      · rw [hwork, hless]
        omega

/-- A client with an object to write is at a point. -/
theorem Todo.of_object (hproper : bench.Proper) {s : ClientState} {o : DataObject}
    {parcels : List Parcel} (h : Todo bench s parcels) (hobject : bench.client.object s = some o) :
    ∃ j, ∃ hj : j < bench.data.length, s.phase = .writing (UInt32.ofNat j) ∧ Shift s.delta ∧
      o = .javaSymbol bench.data[j].symbol ∧ parcels = bench.parcelsFrom j := by
  cases h with
  | starting h =>
      simp only [client, h] at hobject
      cases hobject
  | timing hj h hdelta =>
      simp only [client, h] at hobject
      cases hobject
  | writing hj h hdelta =>
      simp only [client, h, toNat_ofNat_length (hj.trans hproper.length_lt),
        List.getElem?_eq_getElem hj, Option.map_some] at hobject
      exact ⟨_, hj, h, hdelta, (Option.some.inj hobject).symm, rfl⟩
  | returned h =>
      simp only [client, h] at hobject
      cases hobject

/-- **The client of the real-world benchmark writes its symbols.** -/
theorem sends (hproper : bench.Proper) :
    bench.client.Sends ClockInRange (Todo bench) (work bench) where
  prepare {s t a parcels} h ha hobject hstep := by
    cases h with
    | starting h =>
        cases a with
        | timestamp now =>
            obtain ⟨t', hstep', htodo, hwork⟩ := todo_starting hproper h ha
            obtain rfl := Option.some.inj (hstep.symm.trans hstep')
            exact ⟨htodo, hwork⟩
        | written result =>
            simp only [client, step, h] at hstep
            cases hstep
    | timing hj h hdelta =>
        cases a with
        | timestamp now =>
            obtain ⟨t', hstep', htodo, hwork⟩ := todo_timing hproper hj h hdelta ha
            obtain rfl := Option.some.inj (hstep.symm.trans hstep')
            exact ⟨htodo, hwork⟩
        | written result =>
            simp only [client, step, h] at hstep
            cases hstep
    | writing hj h hdelta =>
        simp only [client, h, toNat_ofNat_length (hj.trans hproper.length_lt),
          List.getElem?_eq_getElem hj, Option.map_some] at hobject
        cases hobject
    | returned h =>
        simp only [client, step_of_returned h] at hstep
        cases hstep
  object h hobject := by
    obtain ⟨j, hj, -, -, rfl, rfl⟩ := h.of_object hproper hobject
    exact ⟨_, _, parcelsFrom_of_lt hj, rfl⟩
  accepted {s t a _ _ _} h hobject hresult hstep := by
    obtain ⟨j, hj, hphase, hdelta, -, hparcels⟩ := h.of_object hproper hobject
    rw [parcelsFrom_of_lt hj] at hparcels
    obtain ⟨rfl, rfl⟩ := List.cons.inj hparcels
    cases a with
    | timestamp now => cases hresult
    | written result =>
        cases hresult
        obtain ⟨t', hstep', hwork, htodo⟩ := todo_writing hproper hj hphase hdelta true
        obtain rfl := Option.some.inj (hstep.symm.trans hstep')
        exact ⟨htodo, hwork⟩
  rejected {s t a _ _} h hobject hresult hstep := by
    obtain ⟨j, hj, hphase, hdelta, -, -⟩ := h.of_object hproper hobject
    cases a with
    | timestamp now => cases hresult
    | written result =>
        cases hresult
        obtain ⟨t', hstep', hwork, hreturned⟩ := todo_writing hproper hj hphase hdelta false
        obtain rfl := Option.some.inj (hstep.symm.trans hstep')
        have hfalse : t.phase = .returned false := hreturned
        exact ⟨by simp only [client, hfalse], hwork⟩
  exists_written h hobject result := by
    obtain ⟨j, hj, hphase, hdelta, -, -⟩ := h.of_object hproper hobject
    obtain ⟨t, hstep, -⟩ := todo_writing hproper hj hphase hdelta result
    exact ⟨.written result, t, trivial, rfl, hstep⟩
  exists_prepared {s _} h hobject hrunning := by
    have hzero : Plausible 0 := by decide
    cases h with
    | starting h =>
        obtain ⟨t, hstep, -⟩ := todo_starting hproper h hzero
        exact ⟨.timestamp 0, t, hzero, hstep⟩
    | timing hj h hdelta =>
        obtain ⟨t, hstep, -⟩ := todo_timing hproper hj h hdelta hzero
        exact ⟨.timestamp 0, t, hzero, hstep⟩
    | writing hj h hdelta =>
        simp only [client, h, toNat_ofNat_length (hj.trans hproper.length_lt),
          List.getElem?_eq_getElem hj, Option.map_some] at hobject
        cases hobject
    | returned h =>
        simp only [client, h] at hrunning
        cases hrunning
  ends {s parcels success} h hreturned := by
    cases h with
    | starting h =>
        simp only [client, h] at hreturned
        cases hreturned
    | timing hj h hdelta =>
        simp only [client, h] at hreturned
        cases hreturned
    | writing hj h hdelta =>
        simp only [client, h] at hreturned
        cases hreturned
    | returned h =>
        simp only [client, h] at hreturned
        exact ⟨(Option.some.inj hreturned).symm, rfl⟩
  halts {s success} hreturned := by
    have hphase : s.phase = .returned success := by
      rcases hphase : s.phase with _ | i | i | success' | _
      · simp only [client, hphase] at hreturned
        cases hreturned
      · simp only [client, hphase] at hreturned
        cases hreturned
      · simp only [client, hphase] at hreturned
        cases hreturned
      · simp only [client, hphase, Option.some.injEq] at hreturned
        rw [hreturned]
      · simp only [client, hphase] at hreturned
        cases hreturned
    exact ⟨by simp only [client, hphase], step_of_returned hphase⟩

end Sends

end RealWorldBenchmark

end IpcPerformance
