import IpcPerformance.Handler.CommunicationHandler
import IpcPerformance.Library.Runs

/-! # The reading loop of the benchmarks

The four `run_server` of `src/benchmark/` are one loop: wait until there is data, read, count a message
and skip the next wait, ignore `NO_DATA_AVAILABLE`, give up on any other error. A `ServerLoop` is what
they fill in. The loop is driven by what its handler answers, call by call, so that a list of answers
is a behaviour of the handler.

* `ServerLoop.step_cases` — what a call can do.
* `ServerLoop.fields_of_run`, `continues_of_arrivals` — after a run the fields are those its messages
  make, and the loop wanted each one of them.
* `ServerLoop.returns_iff_of_patient` — a loop that never gives up returns when it is done, and else
  waits for ever when nothing comes any more. -/

namespace IpcPerformance

/-- A message that has been read, and the clock around the call of `read`. -/
structure Arrival where
  /-- The header of the message. -/
  header : DataHeader
  /-- What `get_timestamp` returns before the call. -/
  before : Int64
  /-- What `get_timestamp` returns after the call. -/
  after : Int64
  deriving DecidableEq

/-- What the handler answers to a call. -/
inductive Answer
  /-- `await_data` returns. -/
  | awaited (ready : Bool)
  /-- `read` returns an object, or an error. -/
  | message (arrival : Arrival) (o : DataObject)
  | error (e : CommunicationError) (before after : Int64)

/-- The message an answer brings. -/
def Answer.arrival? : Answer → Option Arrival
  | message arrival _ => some arrival
  | _ => none

/-- The messages among the answers. -/
def arrivals (answers : List Answer) : List Arrival := answers.filterMap Answer.arrival?

/-- An answer of a handler that works: `NO_DATA_AVAILABLE` is the only error. -/
def Answer.Works : Answer → Prop
  | error e _ _ => e = .noDataAvailable
  | _ => True

/-- What a benchmark fills in; its fields and local variables are a `β`. -/
structure ServerLoop (β : Type) where
  /-- The condition of the outer loop. -/
  continues : β → Bool
  /-- Whether the inner loop returns, `await_data` having failed `retry` times in a row. -/
  givesUp : β → Int32 → Bool
  /-- What is done with a message. -/
  received : β → Arrival → β

/-- The call the loop makes next. -/
inductive ServerPhase
  /-- `await_data`; `retry` counts those that have failed since the outer loop began its round. -/
  | awaiting (retry : Int32)
  /-- `read`. -/
  | reading
  /-- None: `run_server` has returned. -/
  | returned (success : Bool)
  deriving DecidableEq

/-- The state of a run. -/
structure ServerState (β : Type) where
  /-- The call that comes next. -/
  phase : ServerPhase
  /-- Fields and local variables. -/
  fields : β

namespace ServerLoop

variable {β : Type}

/-- The next round of the outer loop: with more data there is no need to wait. -/
def next (loop : ServerLoop β) (moreData : Bool) (fields : β) : ServerState β :=
  if loop.continues fields then ⟨if moreData then .reading else .awaiting 0, fields⟩
  else ⟨.returned true, fields⟩

/-- One call and what the loop does until the next one. -/
def step (loop : ServerLoop β) (s : ServerState β) (answer : Answer) : Option (ServerState β) :=
  match s.phase, answer with
  | .awaiting _, .awaited true => some { s with phase := .reading }
  | .awaiting retry, .awaited false =>
      let retry := retry + 1
      some { s with
        phase := if loop.givesUp s.fields retry then .returned true else .awaiting retry }
  | .reading, .message arrival _ => some (loop.next true (loop.received s.fields arrival))
  | .reading, .error e _ _ =>
      -- 'No data available' is not a real error, so ignore it
      if e = .noDataAvailable then some (loop.next false s.fields)
      else some { s with phase := .returned false }
  | _, _ => none

/-- `run_server` begins. -/
def start (loop : ServerLoop β) (fields : β) : ServerState β := loop.next false fields

/-- The answer of a handler with nothing to read. -/
def silence : ServerPhase → Answer
  | .reading => .error .noDataAvailable 0 0
  | _ => .awaited false

/-- The next state when there is nothing to read. -/
def wait (loop : ServerLoop β) (s : ServerState β) : ServerState β :=
  (loop.step s (silence s.phase)).getD s

/-- When nothing comes any more, `run_server` returns after finitely many calls. -/
def Returns (loop : ServerLoop β) (s : ServerState β) : Prop :=
  ∃ n success, (loop.wait^[n] s).phase = .returned success

/-! ## What a call does -/

/-- **What a call can do**: the wait ends, the wait fails, a message is counted, or an error is
reported. -/
theorem step_cases {loop : ServerLoop β} {s t : ServerState β} {answer : Answer}
    (h : loop.step s answer = some t) :
    (∃ retry, s.phase = .awaiting retry ∧ answer = .awaited true ∧ t = { s with phase := .reading }) ∨
    (∃ retry, s.phase = .awaiting retry ∧ answer = .awaited false ∧
      t = { s with
        phase := if loop.givesUp s.fields (retry + 1) then .returned true else .awaiting (retry + 1) }) ∨
    (∃ arrival o, s.phase = .reading ∧ answer = .message arrival o ∧
      t = loop.next true (loop.received s.fields arrival)) ∨
    (∃ before after, s.phase = .reading ∧ answer = .error .noDataAvailable before after ∧
      t = loop.next false s.fields) ∨
    (∃ e before after, s.phase = .reading ∧ e ≠ .noDataAvailable ∧ answer = .error e before after ∧
      t = { s with phase := .returned false }) := by
  unfold step at h
  split at h
  · rename_i retry hphase
    exact .inl ⟨retry, hphase, rfl, (Option.some.inj h).symm⟩
  · rename_i retry hphase
    exact .inr (.inl ⟨retry, hphase, rfl, (Option.some.inj h).symm⟩)
  · rename_i arrival o hphase
    exact .inr (.inr (.inl ⟨arrival, o, hphase, rfl, (Option.some.inj h).symm⟩))
  · rename_i e before after hphase
    by_cases he : e = .noDataAvailable
    · subst he
      exact .inr (.inr (.inr (.inl ⟨before, after, hphase, rfl, (Option.some.inj h).symm⟩)))
    · rw [if_neg he] at h
      exact .inr (.inr (.inr (.inr ⟨e, before, after, hphase, he, rfl, (Option.some.inj h).symm⟩)))
  · cases h

@[simp] theorem fields_next (loop : ServerLoop β) (moreData : Bool) (fields : β) :
    (loop.next moreData fields).fields = fields := by
  unfold next
  split <;> rfl

/-- A round begins with a call of the handler if the loop goes on, and ends it otherwise. -/
theorem phase_next (loop : ServerLoop β) (moreData : Bool) (fields : β) :
    (loop.next moreData fields).phase =
      if loop.continues fields then if moreData then .reading else .awaiting 0
      else .returned true := by
  unfold next
  split <;> rfl

/-- A round does not begin with a failure. -/
theorem phase_next_ne (loop : ServerLoop β) (moreData : Bool) (fields : β) :
    (loop.next moreData fields).phase ≠ .returned false := by
  rw [phase_next]
  split_ifs <;> exact nofun

/-! ## Runs -/

/-- `run_server` has not returned. -/
def Running (s : ServerState β) : Prop := ∀ success, s.phase ≠ .returned success

/-- Only a loop that runs makes calls. -/
theorem running_of_step {loop : ServerLoop β} {s t : ServerState β} {answer : Answer}
    (hstep : loop.step s answer = some t) : Running s := by
  intro success hphase
  unfold step at hstep
  rw [hphase] at hstep
  cases hstep

/-- Where a loop can be: it wants more as long as it runs, and it has what it wants, or has given up,
when it has returned true. -/
structure Sound (loop : ServerLoop β) (s : ServerState β) : Prop where
  running : Running s → loop.continues s.fields = true
  returned : s.phase = .returned true →
    loop.continues s.fields = false ∨ ∃ retry, loop.givesUp s.fields retry = true

/-- A round is begun soundly. -/
theorem sound_next (loop : ServerLoop β) (moreData : Bool) (fields : β) :
    loop.Sound (loop.next moreData fields) := by
  by_cases hcontinues : loop.continues fields = true
  · refine ⟨fun _ => by rw [fields_next, hcontinues], ?_⟩
    intro h
    rw [phase_next, if_pos hcontinues] at h
    cases moreData <;> cases h
  · refine ⟨?_, fun _ => .inl (by rw [fields_next, Bool.eq_false_iff.mpr hcontinues])⟩
    intro h
    refine absurd ?_ (h true)
    rw [phase_next, if_neg hcontinues]

/-- Every call keeps the loop sound. -/
theorem Sound.step {loop : ServerLoop β} {s t : ServerState β} {answer : Answer} (h : loop.Sound s)
    (hstep : loop.step s answer = some t) : loop.Sound t := by
  rcases step_cases hstep with ⟨retry, hphase, -, rfl⟩ | ⟨retry, hphase, -, rfl⟩ |
    ⟨arrival, o, -, -, rfl⟩ | ⟨before, after, -, -, rfl⟩ | ⟨e, before, after, hphase, -, -, rfl⟩
  · refine ⟨fun _ => h.running ?_, nofun⟩
    intro success
    rw [hphase]
    exact nofun
  · have hwants : loop.continues s.fields = true := by
      apply h.running
      intro success
      rw [hphase]
      exact nofun
    refine ⟨fun _ => hwants, ?_⟩
    intro hreturned
    by_cases hgives : loop.givesUp s.fields (retry + 1) = true
    · exact .inr ⟨retry + 1, hgives⟩
    · simp only [if_neg hgives] at hreturned
      cases hreturned
  · exact sound_next loop true _
  · exact sound_next loop false _
  · refine ⟨?_, nofun⟩
    intro hrunning
    exact absurd rfl (hrunning false)

theorem arrivals_concat (answers : List Answer) (answer : Answer) :
    arrivals (answers ++ [answer]) = arrivals answers ++ answer.arrival?.toList := by
  unfold arrivals
  rw [List.filterMap_append]
  cases h : answer.arrival? <;> simp [h]

/-- A call counts the message it brings, if any. -/
theorem fields_step {loop : ServerLoop β} {s t : ServerState β} {answer : Answer}
    (hstep : loop.step s answer = some t) :
    t.fields = answer.arrival?.toList.foldl loop.received s.fields := by
  rcases step_cases hstep with ⟨retry, -, rfl, rfl⟩ | ⟨retry, -, rfl, rfl⟩ |
    ⟨arrival, o, -, rfl, rfl⟩ | ⟨before, after, -, rfl, rfl⟩ | ⟨e, before, after, -, -, rfl, rfl⟩
  · rfl
  · rfl
  · exact fields_next loop true _
  · exact fields_next loop false _
  · rfl

section Run

variable {loop : ServerLoop β} {fields : β} {answers : List Answer} {t : ServerState β}

theorem sound_of_run (hrun : runAll loop.step (loop.start fields) answers = some t) :
    loop.Sound t :=
  runAll_history (fun _ s => loop.Sound s) (sound_next loop false fields)
    (fun _ _ _ _ h hstep => h.step hstep) hrun

/-- After a run the fields are those the messages make. -/
theorem fields_of_run (hrun : runAll loop.step (loop.start fields) answers = some t) :
    t.fields = (arrivals answers).foldl loop.received fields := by
  refine runAll_history (fun answers s => s.fields = (arrivals answers).foldl loop.received fields)
    (fields_next loop false fields) ?_ hrun
  intro answers s answer t h hstep
  rw [arrivals_concat, List.foldl_append, ← h]
  exact fields_step hstep

/-- The loop wanted every message it has read. -/
theorem continues_of_arrivals (hrun : runAll loop.step (loop.start fields) answers = some t) (n : ℕ)
    (hn : n < (arrivals answers).length) :
    loop.continues (((arrivals answers).take n).foldl loop.received fields) = true := by
  -- the fields are part of the invariant, they are what the loop looks at
  refine (runAll_history (fun answers s => loop.Sound s ∧
    s.fields = (arrivals answers).foldl loop.received fields ∧
    ∀ n < (arrivals answers).length,
      loop.continues (((arrivals answers).take n).foldl loop.received fields) = true)
    ⟨sound_next loop false fields, fields_next loop false fields, fun n h => absurd h (Nat.not_lt_zero n)⟩
    ?_ hrun).2.2 n hn
  rintro answers s answer t ⟨hsound, hfields, hall⟩ hstep
  refine ⟨hsound.step hstep, ?_, ?_⟩
  · rw [arrivals_concat, List.foldl_append, ← hfields]
    exact fields_step hstep
  · intro n hn
    rw [arrivals_concat, List.length_append] at hn
    rw [arrivals_concat]
    by_cases hold : n < (arrivals answers).length
    · rw [List.take_append_of_le_length hold.le]
      exact hall n hold
    · -- a new message: the loop was reading
      have hnew : answer.arrival?.toList.length ≤ 1 := by
        cases answer.arrival? <;> simp
      have heq : n = (arrivals answers).length := by omega
      rw [heq, List.take_left, ← hfields]
      exact hsound.running (running_of_step hstep)

/-- A handler that works does not make the loop fail. -/
theorem phase_ne_of_works (hworks : ∀ answer ∈ answers, answer.Works)
    (hrun : runAll loop.step (loop.start fields) answers = some t) : t.phase ≠ .returned false := by
  have halong : Along loop.step (fun _ answer => answer.Works) (loop.start fields) answers :=
    along_of_forall hworks (loop.start fields)
  have hkeeps : ∀ s answer s', s.phase ≠ .returned false → answer.Works →
      loop.step s answer = some s' → s'.phase ≠ .returned false := by
    intro s answer s' h hanswer hstep
    rcases step_cases hstep with ⟨retry, -, -, rfl⟩ | ⟨retry, -, -, rfl⟩ | ⟨arrival, o, -, -, rfl⟩ |
      ⟨before, after, -, -, rfl⟩ | ⟨e, before, after, -, he, rfl, rfl⟩
    · exact nofun
    · intro hphase
      by_cases hgives : loop.givesUp s.fields (retry + 1) = true
      · simp only [if_pos hgives] at hphase
        cases hphase
      · simp only [if_neg hgives] at hphase
        cases hphase
    · exact phase_next_ne loop true _
    · exact phase_next_ne loop false _
    · exact absurd hanswer he
  exact runAll_invariant hkeeps (phase_next_ne loop false fields) halong hrun

end Run

/-! ## When nothing comes any more -/

/-- A failed wait. -/
theorem wait_of_awaiting (loop : ServerLoop β) {s : ServerState β} {retry : Int32}
    (h : s.phase = .awaiting retry) :
    loop.wait s = { s with
      phase := if loop.givesUp s.fields (retry + 1) then .returned true else .awaiting (retry + 1) } := by
  unfold wait step
  rw [h]
  rfl

/-- A read that finds nothing. -/
theorem wait_of_reading (loop : ServerLoop β) {s : ServerState β} (h : s.phase = .reading) :
    loop.wait s = loop.next false s.fields := by
  unfold wait step
  rw [h]
  rfl

/-- A loop that never gives up goes on waiting for what it wants. -/
theorem wait_of_patient {loop : ServerLoop β} (hpatient : ∀ fields retry, loop.givesUp fields retry = false)
    {s : ServerState β} (hrunning : Running s) (hwants : loop.continues s.fields = true) :
    Running (loop.wait s) ∧ (loop.wait s).fields = s.fields := by
  rcases hphase : s.phase with retry | _ | success
  · rw [wait_of_awaiting loop hphase, hpatient]
    exact ⟨nofun, rfl⟩
  · rw [wait_of_reading loop hphase]
    refine ⟨?_, fields_next loop false _⟩
    intro success
    rw [phase_next, if_pos hwants]
    exact nofun
  · exact absurd hphase (hrunning success)

/-- So it does for ever. -/
theorem running_iterate_of_patient {loop : ServerLoop β}
    (hpatient : ∀ fields retry, loop.givesUp fields retry = false) (n : ℕ) {s : ServerState β}
    (hrunning : Running s) (hwants : loop.continues s.fields = true) :
    Running (loop.wait^[n] s) := by
  induction n generalizing s with
  | zero => exact hrunning
  | succ n ih =>
      obtain ⟨hrunning', hfields⟩ := wait_of_patient hpatient hrunning hwants
      rw [Function.iterate_succ_apply]
      exact ih hrunning' (by rw [hfields, hwants])

/-- **When a loop that never gives up returns**, its handler working: exactly when it has what it
wants. -/
theorem returns_iff_of_patient {loop : ServerLoop β}
    (hpatient : ∀ fields retry, loop.givesUp fields retry = false) {fields : β}
    {answers : List Answer} {t : ServerState β} (hworks : ∀ answer ∈ answers, answer.Works)
    (hrun : runAll loop.step (loop.start fields) answers = some t) :
    loop.Returns t ↔ loop.continues t.fields = false := by
  have hsound := sound_of_run hrun
  by_cases hrunning : Running t
  · have hwants := hsound.running hrunning
    refine iff_of_false ?_ (by rw [hwants]; exact nofun)
    rintro ⟨n, success, hphase⟩
    exact running_iterate_of_patient hpatient n hrunning hwants success hphase
  · obtain ⟨success, hphase⟩ : ∃ success, t.phase = .returned success := by
      by_contra hno
      exact hrunning fun success hphase => hno ⟨success, hphase⟩
    cases success with
    | false => exact absurd hphase (phase_ne_of_works hworks hrun)
    | true =>
        refine iff_of_true ⟨0, true, hphase⟩ ?_
        rcases hsound.returned hphase with hdone | ⟨retry, hgives⟩
        · exact hdone
        · rw [hpatient] at hgives
          cases hgives

end ServerLoop

end IpcPerformance
