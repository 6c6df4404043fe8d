import IpcPerformance.Handler.Meeting

/-! # Meeting at a name

A reader opens, reads and closes a name, as often as it likes, and any number of writers open it, write
to it and close it at the same time, one system call at a time.

* `Fifo.talking`, `MessageQueue.talking`, `DatagramSocket.talking` — what the methods of the three classes
  do.
* `NamedKind.meeting_of_run` — so, in every run, the reader reads what the writers that have opened the
  name since it was removed have sent, in that order, and nothing else. -/

namespace IpcPerformance

variable {P : Type} [DecidableEq P] {contains : Contents} {r p : P} {k k' : Kernel P} {fd : ℤ} {file : ℕ}
  {sent : List (List UInt8)} {inbox inbox' rest : List (DataHeader × DataObject)}

/-! ## Pipes -/

/-- A pipe has the bytes of the messages, one after the other. -/
def streamContents : Contents := fun content rest => content.flatten = streamBytes rest

/-- A queue, or a socket, has the messages. -/
def messageContents : Contents := fun content rest => content = rest.map imageOf

/-- What a file of a class has. -/
def NamedKind.contents : NamedKind → Contents
  | fifo => streamContents
  | queue => messageContents
  | datagram => messageContents

/-- **What holds while the reader is open**, with the messages it has read since then, and those still
in its file. -/
structure NamedKind.Gathering (kind : NamedKind) (r : P) (k : Kernel P) (l : kind.named.Party)
    (file : ℕ) (rest : List (DataHeader × DataObject)) : Prop where
  /-- All that was sent to its file has been read, or is to be read next, in this order. -/
  meeting : Meeting kind.contents k r (kind.named.descriptor l.handler) file l.inbox rest
  /-- It has been sent since the name was removed. -/
  since (d : Delivery P) (hd : d ∈ k.deliveries.take k.cleared) : d.file ≠ file
  /-- When the file is empty, everything has been read. -/
  emptied (h : (k.content file).flatten = []) : rest = []
  /-- Another handler is at this file exactly if it has opened the name since then. -/
  writers {p : P} (hp : p ≠ r) {fd : ℤ} {file' : ℕ} (h : k.fileOf p fd = some file') :
    file' = file ↔ k.recent p = true

end IpcPerformance

