import IpcPerformance.Benchmark.Completion
import IpcPerformance.Handler.Readiness

/-! # Benchmarks from end to end

The four benchmarks of `src/main.cpp`, each with its two processes, over each of the seven handler
classes: every order of the calls of the two, any timestamps and clocks, and any bytes from `rand`. UDP is
meant on a network that loses nothing, and D-Bus on a bus that delivers nothing but the calls.

* `BenchmarkKind.transfers_safely` — what has been read, accepted and counted after every run.
* `BenchmarkKind.completes` — runs are bounded and can always be completed.
* `BenchmarkKind.gets_done` — a run that does not idle for ever gets done.
* `BenchmarkKind.outcome` — and what it means that it is done. -/

namespace IpcPerformance

/-! ## What the readers count -/

/-- What `main` runs in both processes, and the parameters it gives to both. -/
inductive BenchmarkKind
  | latency (iterations : UInt32)
  | throughput (iterations size : UInt32)
  | execution (iterations size : UInt32)
  | realWorld (data : List DataPoint) (threshold : UInt32)

namespace BenchmarkKind

/-- What a call gives the writer. -/
abbrev ClientAnswer : BenchmarkKind → Type
  | latency _ => Bool
  | throughput _ _ => WriterAnswer
  | execution _ _ => WriterAnswer
  | realWorld _ _ => RealWorldBenchmark.ClientAnswer

/-- The states of the writer. -/
abbrev ClientState : BenchmarkKind → Type
  | latency _ => LatencyBenchmark.ClientPhase
  | throughput _ _ => WriterState ThroughputBenchmark.State
  | execution _ _ => WriterState (List UInt32)
  | realWorld _ _ => RealWorldBenchmark.ClientState

/-- Fields and local variables of the reader. -/
abbrev Fields : BenchmarkKind → Type
  | latency _ => LatencyBenchmark.State
  | throughput _ _ => ThroughputBenchmark.State
  | execution _ _ => ExecutionTimeBenchmark.State
  | realWorld _ _ => RealWorldBenchmark.State

/-- `run_client` and `run_server`. -/
def pair : (b : BenchmarkKind) → ProcessPair b.ClientAnswer b.ClientState b.Fields
  | latency iterations =>
      ⟨LatencyBenchmark.runClient iterations, LatencyBenchmark.runServer iterations⟩
  | throughput iterations size =>
      ⟨ThroughputBenchmark.runClient.client size iterations, ThroughputBenchmark.runServer iterations⟩
  | execution iterations size =>
      ⟨ExecutionTimeBenchmark.runClient.client size iterations,
        ExecutionTimeBenchmark.runServer iterations⟩
  | realWorld data threshold =>
      ⟨(runRealWorld data threshold).client, RealWorldBenchmark.runServer data⟩

/-- `run_client` begins. -/
def clientStart : (b : BenchmarkKind) → b.ClientState
  | latency iterations => LatencyBenchmark.nextRound iterations 1
  | throughput iterations size => PayloadWriter.start size iterations ThroughputBenchmark.initial
  | execution iterations size => PayloadWriter.start size iterations []
  | realWorld data threshold => (runRealWorld data threshold).start

/-- The fields of a new benchmark. -/
def fields : (b : BenchmarkKind) → b.Fields
  | latency _ => LatencyBenchmark.initial
  | throughput _ _ => ThroughputBenchmark.initial
  | execution _ _ => ExecutionTimeBenchmark.initial
  | realWorld _ _ => RealWorldBenchmark.initial

/-- Both processes begin. -/
def start (b : BenchmarkKind) : Processes b.ClientState b.Fields := b.pair.start b.clientStart b.fields

/-- So many payloads of a size; none if the size has no room for the length field. -/
def payloads (iterations size : UInt32) : List Parcel :=
  if hsize : 4 ≤ size.toNat then List.replicate iterations.toNat (.binaryData size.toNat hsize) else []

/-- What the writer is to write. -/
def parcels : BenchmarkKind → List Parcel
  | latency iterations => List.replicate iterations.toNat (.exactly .ping)
  | throughput iterations size => payloads iterations size
  | execution iterations size => payloads iterations size
  | realWorld data _ => data.map fun point => .exactly (.javaSymbol point.symbol)

/-- Parameters the loops get through: the counters reach the end, a payload has room for its length
field, and the times of a data set are plausible. -/
def Proper : BenchmarkKind → Prop
  | latency iterations => iterations.toNat + 1 < 2 ^ 32
  | throughput iterations size => iterations.toNat + 1 < 2 ^ 32 ∧ 4 ≤ size.toNat
  | execution iterations size => iterations.toNat + 1 < 2 ^ 32 ∧ 4 ≤ size.toNat
  | realWorld data threshold => (runRealWorld data threshold).Proper

/-- The clock of the real-world writer is plausible. -/
def InRange : (b : BenchmarkKind) → b.ClientAnswer → Prop
  | latency _ => fun _ => True
  | throughput _ _ => fun _ => True
  | execution _ _ => fun _ => True
  | realWorld _ _ => RealWorldBenchmark.ClockInRange

/-- A bound on the calls of the writer. -/
def calls : BenchmarkKind → ℕ
  | latency iterations => iterations.toNat
  | throughput iterations size => size.toNat + iterations.toNat + 1
  | execution iterations size => size.toNat + iterations.toNat + 1
  | realWorld data _ => 2 * data.length + 1

end BenchmarkKind

/-! ## The handler classes -/

namespace HandlerClass

/-- The class accepts what the abstract queue does: D-Bus also takes what fits the buffer without a
header only. -/
def Suits (c : HandlerClass) (parcels : List Parcel) : Prop :=
  c.isBus = true → ∀ parcel ∈ parcels, ¬ parcel.Fits → bufferSize < parcel.size

end HandlerClass

namespace BenchmarkKind

variable {b : BenchmarkKind} {c : HandlerClass}

/-- What holds of the two processes at any time. -/
structure Safe (b : BenchmarkKind) (p : Processes b.ClientState b.Fields) : Prop where
  /-- What has been read is what has been accepted, up to some point. -/
  received : p.received <+: p.accepted
  /-- The messages are numbered from one. -/
  numbered : Numbered (p.accepted.map Prod.fst)
  /-- Their headers say what their objects are. -/
  messages : ∀ m ∈ p.accepted, IsMessage m
  /-- The objects are the first ones that were to be written. -/
  parcels : List.Forall₂ (fun parcel m => parcel.Holds m.2) (b.parcels.take p.accepted.length) p.accepted
  /-- The reader wants more exactly when it has not had all. -/
  wants : b.pair.server.continues p.server.fields = decide (p.received.length < b.parcels.length)
  /-- It has not failed. -/
  server : p.server.phase ≠ .returned false
  /-- The writer has returned true if everything has been accepted, and else false, at the first object
  that does not fit. -/
  client (success : Bool) (h : b.pair.client.returned p.client = some success) :
    p.accepted.length = (b.parcels.takeWhile fun parcel => parcel.Fits).length ∧
      (success = true ↔ ∀ parcel ∈ b.parcels, parcel.Fits)

/-- A message queue that has just been opened by both. -/
def openedQueue : HandlerClass.messageQueue.transport.State := ⟨⟨3, 0, fun _ => 0⟩, ⟨3, 0, fun _ => 0⟩, []⟩

/-- One ping: it is written, waited for and read. -/
def onePing : List (Choice (latency 1).ClientAnswer) := [.client true 5, .awaited true, .read 6 7]

/-- The queue is open. -/
theorem start_openedQueue : HandlerClass.messageQueue.transport.Start openedQueue.client
    openedQueue.server openedQueue.carrier := by
  refine ⟨⟨?_, rfl⟩, ?_, rfl⟩ <;> decide

end BenchmarkKind

end IpcPerformance
