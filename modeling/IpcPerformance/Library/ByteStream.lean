import Mathlib

/-! # Byte streams

The reading end of a non-blocking byte stream (a socket or a pipe) as the events its reader will
meet: the descriptor would block, fails, or has a segment of bytes. A receive takes at most what it
asks for and leaves the rest of the segment for the next one. After the last event the stream is at
its end when the peer has closed it, and would block for ever otherwise.

`recv_cases` says all a receive can do; loops over a stream terminate on `work`. -/

/-- What the next receive on a stream meets. A segment has at least one byte. -/
inductive StreamEvent
  | again
  | fail
  | segment (first : UInt8) (rest : List UInt8)
  deriving DecidableEq

/-- What a receive returns. No bytes at all is the end of the stream. -/
inductive RecvResult
  | again
  | error
  | bytes (bytes : List UInt8)
  deriving DecidableEq

/-- The reading end of a stream. -/
structure ByteStream where
  /-- The events still to come. -/
  events : List StreamEvent
  /-- Whether the peer closes the stream after them. -/
  closed : Bool
  deriving DecidableEq

namespace StreamEvent

/-- The bytes an event carries. -/
def bytes : StreamEvent → List UInt8
  | again => []
  | fail => []
  | segment first rest => first :: rest

/-- A segment of the given bytes in front of other events, if there are any bytes. -/
def push : List UInt8 → List StreamEvent → List StreamEvent
  | [], events => events
  | b :: bs, events => segment b bs :: events

/-- The bytes a list of events carries. -/
def carried (events : List StreamEvent) : List UInt8 := events.flatMap bytes

@[simp] theorem carried_nil : carried [] = [] := rfl

@[simp] theorem carried_cons (e : StreamEvent) (es : List StreamEvent) :
    carried (e :: es) = e.bytes ++ carried es := rfl

@[simp] theorem carried_push (bs : List UInt8) (es : List StreamEvent) :
    carried (push bs es) = bs ++ carried es := by
  cases bs <;> rfl

end StreamEvent

namespace ByteStream

open StreamEvent

/-- Receive at most `n` bytes. -/
def recv (s : ByteStream) (n : ℕ) : RecvResult × ByteStream :=
  match s.events with
  | [] => (if s.closed then .bytes [] else .again, s)
  | .again :: events => (.again, { s with events })
  | .fail :: events => (.error, { s with events })
  | .segment b bs :: events =>
      (.bytes ((b :: bs).take n), { s with events := push ((b :: bs).drop n) events })

/-- The next receive would block. -/
def waits (s : ByteStream) : Bool :=
  match s.events with
  | [] => !s.closed
  | .again :: _ => true
  | _ => false

/-- The bytes still to come. -/
def pending (s : ByteStream) : List UInt8 := carried s.events

/-- The bytes that arrive before a receive fails. -/
def arriving (s : ByteStream) : List UInt8 := carried (s.events.takeWhile (· ≠ .fail))

/-- No receive fails. -/
def Reliable (s : ByteStream) : Prop := .fail ∉ s.events

instance (s : ByteStream) : Decidable s.Reliable :=
  inferInstanceAs (Decidable (StreamEvent.fail ∉ s.events))

/-- Bytes and events still to come: every receive that gets anywhere uses some up. -/
def work (s : ByteStream) : ℕ := s.pending.length + s.events.length

/-- Nothing has been taken from a stream: at most some time has passed. -/
def Idle (stream next : ByteStream) : Prop :=
  (stream.events = next.events ∨ stream.events = .again :: next.events) ∧
    stream.closed = next.closed

/-- An idle stream has the bytes it had. -/
theorem Idle.pending_eq {stream next : ByteStream} (h : stream.Idle next) :
    next.pending = stream.pending := by
  obtain ⟨h | h, -⟩ := h
  · rw [pending, pending, h]
  · rw [pending, pending, h, carried_cons]
    rfl

/-- A receive that would block takes nothing. -/
theorem idle_of_again {stream next : ByteStream} {n : ℕ}
    (h : stream.recv n = (.again, next)) : stream.Idle next := by
  obtain ⟨events, closed⟩ := stream
  rcases events with _ | ⟨_ | _ | _, events⟩
  · cases closed
    · cases h
      exact ⟨.inl rfl, rfl⟩
    · cases h
  · cases h
    exact ⟨.inr rfl, rfl⟩
  · cases h
  · cases h

theorem exists_recv_eq_again {s : ByteStream} {n : ℕ} :
    (∃ s', s.recv n = (.again, s')) ↔ s.waits = true := by
  obtain ⟨events, closed⟩ := s
  rcases events with _ | ⟨e, events⟩
  · cases closed <;> simp [recv, waits]
  · cases e <;> simp [recv, waits]

/-- On a reliable stream everything arrives. -/
theorem arriving_of_reliable {s : ByteStream} (h : s.Reliable) : s.arriving = s.pending := by
  rw [arriving, pending, List.takeWhile_eq_self_iff.mpr]
  intro e he
  simpa using fun hfail : e = .fail => h (hfail ▸ he)

theorem takeWhile_push (bs : List UInt8) (events : List StreamEvent) :
    (push bs events).takeWhile (· ≠ .fail) = push bs (events.takeWhile (· ≠ .fail)) := by
  cases bs with
  | nil => rfl
  | cons b bs => exact List.takeWhile_cons_of_pos (by simp)

/-- **What a receive can do**: it would block, it fails, it meets the end, or it takes some bytes
off the front of the stream. -/
theorem recv_cases (s : ByteStream) {n : ℕ} (hn : 0 < n) :
    (∃ s', s.recv n = (.again, s') ∧ s'.pending = s.pending ∧ s'.arriving = s.arriving ∧
      s'.closed = s.closed ∧ (s.Reliable → s'.Reliable) ∧
      (s'.work < s.work ∨ s' = s ∧ s.events = [] ∧ s.closed = false)) ∨
    (∃ s', s.recv n = (.error, s') ∧ s.arriving = [] ∧ ¬ s.Reliable) ∨
    (s.recv n = (.bytes [], s) ∧ s.events = [] ∧ s.closed = true) ∨
    (∃ bs s', s.recv n = (.bytes bs, s') ∧ bs ≠ [] ∧ bs.length ≤ n ∧
      s.pending = bs ++ s'.pending ∧ s.arriving = bs ++ s'.arriving ∧ s'.closed = s.closed ∧
      (s.Reliable → s'.Reliable) ∧ s'.work < s.work) := by
  obtain ⟨events, closed⟩ := s
  cases events with
  | nil =>
      cases closed with
      | false => exact .inl ⟨_, rfl, rfl, rfl, rfl, id, .inr ⟨rfl, rfl, rfl⟩⟩
      | true => exact .inr (.inr (.inl ⟨rfl, rfl, rfl⟩))
  | cons e events =>
      cases e with
      | again =>
          refine .inl ⟨_, rfl, rfl, ?_, rfl, ?_, .inl ?_⟩
          · simp [arriving, StreamEvent.bytes]
          · simp [Reliable]
          · simp [work, pending, StreamEvent.bytes]
      | fail => exact .inr (.inl ⟨_, rfl, rfl, by simp [Reliable]⟩)
      | segment b bs =>
          obtain ⟨k, rfl⟩ := Nat.exists_eq_add_of_lt hn
          -- the bytes asked for, and the rest of the segment in front of the other events
          refine .inr (.inr (.inr ⟨_, _, rfl, by simp, by simp, ?_, ?_, rfl, ?_, ?_⟩))
          · simp only [pending, carried_push, carried_cons, StreamEvent.bytes]
            rw [← List.append_assoc, List.take_append_drop]
          · rw [arriving, arriving, takeWhile_push, List.takeWhile_cons_of_pos (by simp),
              carried_push, carried_cons, StreamEvent.bytes, ← List.append_assoc,
              List.take_append_drop]
          · intro h
            cases hdrop : (b :: bs).drop (0 + k + 1) <;>
              simpa [Reliable, hdrop, push] using h
          · cases hdrop : (b :: bs).drop (0 + k + 1) with
            | nil =>
                simp only [push, work, pending, carried_cons, StreamEvent.bytes,
                  List.length_append, List.length_cons]
                omega
            | cons c cs =>
                have hlen := congrArg List.length hdrop
                simp only [List.length_drop, List.length_cons] at hlen
                simp only [push, work, pending, carried_cons, StreamEvent.bytes,
                  List.length_append, List.length_cons]
                omega

/-- What is known when a receive would block. -/
theorem of_recv_again {s s' : ByteStream} {n : ℕ} (hn : 0 < n) (hrecv : s.recv n = (.again, s')) :
    s'.pending = s.pending ∧ s'.arriving = s.arriving ∧ s'.closed = s.closed ∧
      (s.Reliable → s'.Reliable) ∧
      (s'.work < s.work ∨ s' = s ∧ s.events = [] ∧ s.closed = false) := by
  rcases s.recv_cases hn with ⟨_, h, hs⟩ | ⟨_, h, _⟩ | ⟨h, _⟩ | ⟨_, _, h, _⟩ <;>
    cases h.symm.trans hrecv
  exact hs

/-- What is known when a receive takes some bytes. -/
theorem of_recv_bytes {s s' : ByteStream} {n : ℕ} {bs : List UInt8} (hn : 0 < n) (hne : bs ≠ [])
    (hrecv : s.recv n = (.bytes bs, s')) :
    bs.length ≤ n ∧ s.pending = bs ++ s'.pending ∧ s.arriving = bs ++ s'.arriving ∧
      s'.closed = s.closed ∧ (s.Reliable → s'.Reliable) ∧ s'.work < s.work := by
  rcases s.recv_cases hn with ⟨_, h, _⟩ | ⟨_, h, _⟩ | ⟨h, _⟩ | ⟨_, _, h, -, hs⟩ <;>
    cases h.symm.trans hrecv
  · exact absurd rfl hne
  · exact hs

/-- A receive leaves no more to come than there was. -/
theorem length_pending_recv_le (s : ByteStream) (n : ℕ) :
    (s.recv n).2.pending.length ≤ s.pending.length := by
  obtain ⟨events, closed⟩ := s
  rcases events with _ | ⟨_ | _ | ⟨b, bs⟩, events⟩
  · exact le_rfl
  · exact le_rfl
  · exact le_rfl
  · -- what is left of the segment is put back
    simp only [recv, pending, carried_push, carried_cons, StreamEvent.bytes, List.length_append,
      List.length_drop]
    omega

end ByteStream
