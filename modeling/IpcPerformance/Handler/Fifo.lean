import IpcPerformance.Handler.CommunicationHandler
import IpcPerformance.Library.Runs

/-! # Fifo pipes

`Fifo::write` and `read` of `src/handler/fifo.cpp`. The reading end of the pipe is a `ByteStream`.
Unlike the stream sockets, `read` asks for header and body once each and asserts that it got them. -/

namespace IpcPerformance

/-- `::read` on a pipe: asking for nothing returns 0 without looking at the pipe. -/
def pipeRead (stream : ByteStream) (count : ℕ) : RecvResult × ByteStream :=
  if count = 0 then (.bytes [], stream) else stream.recv count

/-- The fields of `Fifo` its operations use. -/
structure Fifo where
  /-- Descriptor of the pipe, `-1` when it is not open. -/
  fd : ℤ
  /-- Id of the last message written. -/
  lastId : UInt32
  /-- The bytes of `buffer_`; indices from `bufferSize` on are what lies behind it. -/
  buffer : Memory UInt8

namespace Fifo

/-- `Fifo::write`. -/
def write (fifo : Fifo) (o : DataObject) (timestamp : Int64) (send : SendOutcome) : WriteCall :=
  bufferedWrite (fifo.fd ≠ -1) fifo.buffer fifo.lastId o timestamp send

/-- The body part of `Fifo::read`. -/
def readBody (header : DataHeader) (buffer : Memory UInt8) (stream : ByteStream) : ReadCall :=
  let size := header.bodySize.toNat
  let call : RecvCall := ⟨0, size⟩
  match pipeRead stream size with
  | (.again, next) => ⟨.ok (.error .noDataAvailable), buffer, next, [call]⟩
  | (.error, next) => ⟨.ok (.error .readError), buffer, next, [call]⟩
  | (.bytes bytes, next) =>
      let buffer := buffer.write 0 bytes
      -- `assert(header.get_body_size() == result)`
      if bytes.length = size then
        ⟨.ok (readResult header (deserializeDataObject header.type buffer 0 size)), buffer, next,
          [call]⟩
      else ⟨.error .assertion, buffer, next, [call]⟩

/-- `Fifo::read`. -/
def read (fifo : Fifo) (stream : ByteStream) : ReadCall :=
  if fifo.fd = -1 then ⟨.ok (.error .connectionClosed), fifo.buffer, stream, []⟩
  else
    let call : RecvCall := ⟨0, DataHeader.headerSize⟩
    match pipeRead stream DataHeader.headerSize with
    | (.again, next) => ⟨.ok (.error .noDataAvailable), fifo.buffer, next, [call]⟩
    | (.error, next) => ⟨.ok (.error .readError), fifo.buffer, next, [call]⟩
    | (.bytes bytes, next) =>
        let buffer := fifo.buffer.write 0 bytes
        if bytes = [] then ⟨.ok (.error .noDataAvailable), buffer, next, [call]⟩
        -- `assert(header_size == result)`
        else if bytes.length = DataHeader.headerSize then
          match DataHeader.deserialize buffer 0 DataHeader.headerSize with
          | none => ⟨.ok (.error .invalidHeader), buffer, next, [call]⟩
          | some header => (readBody header buffer next).after [call]
        else ⟨.error .assertion, buffer, next, [call]⟩

/-- One read, given the handler and what is left of the pipe. -/
def readStep : Stepper Fault ReadResult (Fifo × ByteStream) := fun s =>
  let call := s.1.read s.2
  call.outcome.map fun result => (result, ({ s.1 with buffer := call.buffer }, call.stream))

/-- The body is asked for at the start of the buffer, in one piece. -/
@[simp] theorem calls_readBody (header : DataHeader) (buffer : Memory UInt8) (stream : ByteStream) :
    (readBody header buffer stream).calls = [⟨0, header.bodySize.toNat⟩] := by
  simp only [readBody]
  split
  · rfl
  · rfl
  · split <;> rfl

/-- A read that gets the header in one piece goes on with the body. -/
theorem read_of_segment {fifo : Fifo} (hopen : fifo.fd ≠ -1) {b : UInt8} {bs : List UInt8}
    (events : List StreamEvent) (closed : Bool) (hlen : DataHeader.headerSize ≤ (b :: bs).length) :
    fifo.read ⟨.segment b bs :: events, closed⟩ =
      (readBody (.ofImage ((b :: bs).take DataHeader.headerSize))
        (fifo.buffer.write 0 ((b :: bs).take DataHeader.headerSize))
        ⟨StreamEvent.push ((b :: bs).drop DataHeader.headerSize) events, closed⟩).after
          [⟨0, DataHeader.headerSize⟩] := by
  have hread : pipeRead ⟨.segment b bs :: events, closed⟩ DataHeader.headerSize =
      ByteStream.recv ⟨.segment b bs :: events, closed⟩ DataHeader.headerSize :=
    if_neg (by decide)
  have htake : ((b :: bs).take DataHeader.headerSize).length = DataHeader.headerSize :=
    List.length_take_of_le hlen
  have hne : (b :: bs).take DataHeader.headerSize ≠ [] := by
    intro h
    rw [h] at htake
    cases htake
  have hheader : (fifo.buffer.write 0 ((b :: bs).take DataHeader.headerSize)).read 0
      DataHeader.headerSize = (b :: bs).take DataHeader.headerSize := by
    rw [Memory.read_write_take _ _ _ _ htake.ge, List.take_take, Nat.min_self]
  simp only [read, if_neg hopen, hread, ByteStream.recv, if_neg hne, if_pos htake,
    DataHeader.deserialize_headerSize, hheader]

end Fifo

end IpcPerformance
