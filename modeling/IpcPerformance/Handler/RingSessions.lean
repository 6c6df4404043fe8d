import IpcPerformance.Handler.SharedFile
import IpcPerformance.Handler.SharedMemoryCalls

/-! # Sessions of the ring handlers

A server and a client, each a `SharedMemory` or each a `SharedFile`, that are opened, closed and
replaced. The server creates the segment of a name when it opens it and removes the name when it
closes it, the client opens the segment the name stands for. What stays is `offset_`: no `open` and no
`close` touches it.

* `Sessions.step` — the calls, over the ones of `RingCalls`.
* `Sessions.allReturned_of_aligned` — every message written after the latest open is returned, if the
  clients are opened with the cursor of the server.
* `Sessions.not_allReturned` — a fresh client of a server that has read a message is not. -/

namespace IpcPerformance

/-- A new handler object. -/
def RingHandler.fresh : RingHandler := ⟨false, 0, 0, fun _ => 0⟩

/-- A server and a client of one name. -/
structure Sessions (σ : Type) where
  /-- The segments, by number. -/
  segments : ℕ → Segment σ
  /-- Number of segments created. -/
  created : ℕ
  /-- The segment the name stands for. -/
  name : Option ℕ
  /-- The handler of the reader. -/
  server : RingHandler
  /-- The segment the server has opened last. -/
  serverAt : ℕ
  /-- The handler of the writer. -/
  client : RingHandler
  /-- The segment the client has opened last. -/
  clientAt : ℕ
  /-- The messages whose write has returned true since the latest open, in order. -/
  written : List (DataHeader × DataObject)
  /-- The results of the reads since the latest open that have to do with a message, in order. -/
  results : List (Except Fault ReadResult)

/-- A call, or the replacement of a handler by a new object. -/
inductive SessionAction
  | openServer
  | closeServer
  | freshServer
  | openClient
  | closeClient
  | freshClient
  | write (o : DataObject) (timestamp : Int64)
  | read

namespace Sessions

variable {σ : Type} (calls : RingCalls σ)

/-- `open` of a server: the memory or the file is new, and so are the semaphores. -/
def openServer (s : Sessions σ) : Sessions σ :=
  if s.server.isOpen then s
  else { s with
    segments := Function.update s.segments s.created ⟨calls.empty, 0, totalAmount⟩
    created := s.created + 1
    name := some s.created
    server := { s.server with isOpen := true }
    serverAt := s.created
    written := []
    results := [] }

/-- `close` of a server. -/
def closeServer (s : Sessions σ) : Sessions σ :=
  if s.server.isOpen then { s with name := none, server := { s.server with isOpen := false } } else s

/-- `open` of a client; it fails if there is nothing of the name. -/
def openClient (s : Sessions σ) : Sessions σ :=
  if s.client.isOpen then s
  else
    match s.name with
    | none => s
    | some i => { s with
        client := { s.client with isOpen := true }
        clientAt := i
        written := []
        results := [] }

/-- `close` of a client. -/
def closeClient (s : Sessions σ) : Sessions σ :=
  if s.client.isOpen then { s with client := { s.client with isOpen := false } } else s

/-- One call; a write that blocks is no step. The destructor of a handler closes it. -/
def step (s : Sessions σ) : SessionAction → Option (Sessions σ)
  | .openServer => some (s.openServer calls)
  | .closeServer => some s.closeServer
  | .freshServer => some { s.closeServer with server := .fresh }
  | .openClient => some s.openClient
  | .closeClient => some s.closeClient
  | .freshClient => some { s.closeClient with client := .fresh }
  | .write o timestamp =>
      match calls.write s.client (s.segments s.clientAt) o timestamp with
      | none => none
      | some (result, client, segment) =>
          let written :=
            if result then s.written ++ [s.client.nextMessage o timestamp] else s.written
          some { s with segments := Function.update s.segments s.clientAt segment, client, written }
  | .read =>
      let (result, server, segment) := calls.read s.server (s.segments s.serverAt)
      let results := if s.server.isOpen then s.results ++ answer result else s.results
      some { s with segments := Function.update s.segments s.serverAt segment, server, results }

/-- Two new handlers, and nothing of their name. -/
def initial : Sessions σ where
  segments := fun _ => ⟨calls.empty, 0, totalAmount⟩
  created := 0
  name := none
  server := .fresh
  serverAt := 0
  client := .fresh
  clientAt := 0
  written := []
  results := []

/-- Handlers are closed and replaced when all messages have been read. -/
def Orderly (s : Sessions σ) : SessionAction → Prop
  | .closeServer | .freshServer | .closeClient | .freshClient => s.results.length = s.written.length
  | _ => True

instance (s : Sessions σ) : (a : SessionAction) → Decidable (s.Orderly a)
  | .closeServer | .freshServer | .closeClient | .freshClient =>
      inferInstanceAs (Decidable (s.results.length = s.written.length))
  | .openServer | .openClient | .write _ _ | .read => .isTrue trivial

/-- The client has open what the server has open. -/
def Joined (s : Sessions σ) : Prop :=
  s.server.isOpen = true ∧ s.client.isOpen = true ∧ s.clientAt = s.serverAt

/-- A client is opened when its cursor is that of the server, and writes to what the server has
open. -/
def Aligned (s : Sessions σ) : SessionAction → Prop
  | .openClient => s.server.isOpen = true → s.client.isOpen = false →
      s.client.offset = s.server.offset
  | .write _ _ => s.client.isOpen = true → s.Joined
  | _ => True

instance (s : Sessions σ) : Decidable s.Joined :=
  inferInstanceAs (Decidable (_ ∧ _ ∧ _))

instance (s : Sessions σ) : (a : SessionAction) → Decidable (s.Aligned a)
  | .openClient => inferInstanceAs (Decidable (_ → _ → _))
  | .write _ _ => inferInstanceAs (Decidable (_ → s.Joined))
  | .openServer | .closeServer | .freshServer | .closeClient | .freshClient | .read =>
      .isTrue trivial

/-- Every message written after the latest open is returned by the reads, once and in order. -/
def AllReturned (s : Sessions σ) : Prop :=
  calls.AllReturned s.server (s.segments s.serverAt) s.results s.written

/-! ## What holds between calls -/

/-- Everything written has been read, and an open server has an empty ring. -/
def Quiet (s : Sessions σ) : Prop :=
  (s.results = s.written.map fun m => .ok (.ok m)) ∧
  (s.server.isOpen = true →
    (s.segments s.serverAt).reader = 0 ∧ (s.segments s.serverAt).writer ≤ totalAmount)

/-- Server and client are joined by a ring that holds what has not been returned. -/
def Flowing (s : Sessions σ) : Prop :=
  s.Joined ∧ ∃ items, RingState totalAmount (calls.holds (s.segments s.serverAt).store)
      s.server.offset s.client.offset (s.segments s.serverAt).reader (s.segments s.serverAt).writer
      items ∧
    s.results ++ items.map (fun m => .ok (.ok m)) = s.written.map fun m => .ok (.ok m)

/-- What every orderly and aligned call preserves. -/
structure Inv (s : Sessions σ) : Prop where
  /-- The cursor of the server is a slot. -/
  offset_lt : s.server.offset < totalAmount
  /-- The name stands for what the server has open. -/
  name_eq : s.name = if s.server.isOpen then some s.serverAt else none
  /-- What the server has open has been created. -/
  server_lt : s.server.isOpen = true → s.serverAt < s.created
  /-- What the client has open has been created. -/
  client_lt : s.client.isOpen = true → s.clientAt < s.created
  /-- Unless server and client are joined there is nothing to read. -/
  ring : s.Flowing calls ∨ (¬ s.Joined ∧ s.Quiet)

theorem inv_initial : Inv calls (initial calls) where
  offset_lt := show 0 < totalAmount by decide
  name_eq := rfl
  server_lt hopen := by cases hopen
  client_lt hopen := by cases hopen
  ring := by
    refine .inr ⟨?_, rfl, ?_⟩
    · rintro ⟨hopen, -⟩
      cases hopen
    · intro hopen
      cases hopen

variable {calls}

/-- Without a ring between them there is nothing to read. -/
theorem Inv.quiet_of_not_joined {s : Sessions σ} (h : s.Inv calls) (hjoined : ¬ s.Joined) :
    s.Quiet := by
  rcases h.ring with ⟨hj, -⟩ | ⟨-, hquiet⟩
  · exact absurd hj hjoined
  · exact hquiet

/-- When as much has been read as written, the ring is empty. -/
theorem Inv.quiet_of_length {s : Sessions σ} (h : s.Inv calls)
    (hlength : s.results.length = s.written.length) : s.Quiet := by
  rcases h.ring with ⟨hj, items, hring, hitems⟩ | ⟨-, hquiet⟩
  · have hcount := congrArg List.length hitems
    rw [List.length_append, List.length_map, List.length_map] at hcount
    obtain rfl : items = [] := List.eq_nil_of_length_eq_zero (by omega)
    refine ⟨?_, fun _ => ⟨hring.reader_eq, ?_⟩⟩
    · rw [← hitems, List.map_nil, List.append_nil]
    · have hle := hring.writer_le
      rwa [List.length_nil, Nat.add_zero] at hle
  · exact hquiet

/-- What has been written has been returned or will be. -/
theorem Inv.allReturned {s : Sessions σ} (h : s.Inv calls) : s.AllReturned calls := by
  rcases h.ring with ⟨hj, items, hring, hitems⟩ | ⟨-, hresults, -⟩
  · exact calls.allReturned_of_ringState hj.1 hring hitems
  · have hlength := congrArg List.length hresults
    rw [List.length_map] at hlength
    rw [AllReturned, RingCalls.AllReturned, hlength, Nat.sub_self, RingCalls.readOn, List.append_nil]
    exact hresults

/-! ## Opening and closing -/

theorem Inv.openServer {s : Sessions σ} (h : s.Inv calls) : (s.openServer calls).Inv calls := by
  unfold Sessions.openServer
  cases hopen : s.server.isOpen with
  | true =>
      rw [if_pos rfl]
      exact h
  | false =>
      rw [if_neg Bool.false_ne_true]
      refine ⟨h.offset_lt, rfl, fun _ => Nat.lt_succ_self _,
        fun hclient => (h.client_lt hclient).trans (Nat.lt_succ_self _), .inr ⟨?_, rfl, ?_⟩⟩
      · -- the client has something else open
        rintro ⟨-, hclient, hat⟩
        exact absurd hat (h.client_lt hclient).ne
      · intro _
        simp only [Function.update_self]
        exact ⟨trivial, le_rfl⟩

theorem Inv.openClient {s : Sessions σ} (h : s.Inv calls) (haligned : s.Aligned .openClient) :
    s.openClient.Inv calls := by
  unfold Sessions.openClient
  cases hclient : s.client.isOpen with
  | true =>
      rw [if_pos rfl]
      exact h
  | false =>
      rw [if_neg Bool.false_ne_true, h.name_eq]
      cases hserver : s.server.isOpen with
      | false => exact h
      | true =>
          simp only [if_true]
          have hquiet : s.Quiet := by
            apply h.quiet_of_not_joined
            rintro ⟨-, hopen, -⟩
            rw [hclient] at hopen
            cases hopen
          obtain ⟨hreader, hwriter⟩ := hquiet.2 hserver
          have hoffset : s.client.offset = s.server.offset := haligned hserver hclient
          refine ⟨h.offset_lt, by rw [if_pos hserver], h.server_lt, fun _ => h.server_lt hserver,
            .inl ⟨⟨hserver, rfl, rfl⟩, [], ?_, rfl⟩⟩
          -- both cursors are on the same slot of an empty ring
          change RingState _ _ s.server.offset s.client.offset _ _ _
          rw [hoffset, hreader]
          exact RingState.empty h.offset_lt hwriter

theorem Inv.closeServer {s : Sessions σ} (h : s.Inv calls) (hquiet : s.Quiet) :
    s.closeServer.Inv calls ∧ s.closeServer.server.isOpen = false ∧ s.closeServer.Quiet := by
  unfold Sessions.closeServer
  cases hopen : s.server.isOpen with
  | false =>
      rw [if_neg Bool.false_ne_true]
      exact ⟨h, hopen, hquiet⟩
  | true =>
      rw [if_pos rfl]
      have hquiet' : Quiet { s with name := none, server := { s.server with isOpen := false } } :=
        ⟨hquiet.1, nofun⟩
      refine ⟨⟨h.offset_lt, rfl, nofun, h.client_lt, .inr ⟨?_, hquiet'⟩⟩, rfl,
        hquiet'⟩
      rintro ⟨hopen, -⟩
      cases hopen

theorem Inv.closeClient {s : Sessions σ} (h : s.Inv calls) (hquiet : s.Quiet) :
    s.closeClient.Inv calls ∧ s.closeClient.client.isOpen = false ∧ s.closeClient.Quiet := by
  unfold Sessions.closeClient
  cases hopen : s.client.isOpen with
  | false =>
      rw [if_neg Bool.false_ne_true]
      exact ⟨h, hopen, hquiet⟩
  | true =>
      rw [if_pos rfl]
      have hquiet' : Quiet { s with client := { s.client with isOpen := false } } := hquiet
      refine ⟨⟨h.offset_lt, h.name_eq, h.server_lt, nofun, .inr ⟨?_, hquiet'⟩⟩,
        rfl, hquiet'⟩
      rintro ⟨-, hopen, -⟩
      cases hopen

/-- A closed server may be replaced. -/
theorem Inv.freshServer {s : Sessions σ} (h : s.Inv calls) (hclosed : s.server.isOpen = false)
    (hquiet : s.Quiet) : Inv calls { s with server := .fresh } := by
  have hname : s.name = none := by
    rw [h.name_eq, hclosed]
    rfl
  refine ⟨show 0 < totalAmount by decide, hname, nofun, h.client_lt, .inr ⟨?_, hquiet.1, ?_⟩⟩
  · rintro ⟨hopen, -⟩
    cases hopen
  · intro hopen
    cases hopen

/-- A closed client may be replaced. -/
theorem Inv.freshClient {s : Sessions σ} (h : s.Inv calls) (hquiet : s.Quiet) :
    Inv calls { s with client := .fresh } := by
  refine ⟨h.offset_lt, h.name_eq, h.server_lt, nofun, .inr ⟨?_, hquiet⟩⟩
  rintro ⟨-, hopen, -⟩
  cases hopen

/-! ## Writing and reading -/

/-- A write on a ring that both have open. -/
theorem Inv.write {s s' : Sessions σ} (h : s.Inv calls) {o : DataObject} {timestamp : Int64}
    (haligned : s.Aligned (.write o timestamp))
    (hstep : s.step calls (.write o timestamp) = some s') : s'.Inv calls := by
  rw [step] at hstep
  cases hopen : s.client.isOpen with
  | false =>
      simp only [calls.write_of_closed hopen, Bool.false_eq_true, if_false,
        Function.update_eq_self] at hstep
      cases hstep
      exact h
  | true =>
      have hjoined := haligned hopen
      by_cases hfits : o.Fits
      · rcases h.ring with ⟨-, items, hring, hitems⟩ | ⟨hnot, -⟩
        · rw [← hjoined.2.2] at hring
          cases hsegment : s.segments s.clientAt with
          | mk store reader writer =>
              rw [hsegment] at hstep hring
              cases writer with
              | zero =>
                  simp only [calls.write_of_zero hopen store reader hfits timestamp] at hstep
                  cases hstep
              | succ writer =>
                  obtain ⟨buffer, store', hwrite, hholds, hkeep⟩ :=
                    calls.write_of_pos hopen store reader writer hfits timestamp
                  simp only [hwrite, if_true] at hstep
                  cases hstep
                  -- the message joins those that have not been returned
                  refine ⟨h.offset_lt, h.name_eq, h.server_lt, fun _ => h.client_lt hopen,
                    .inl ⟨⟨hjoined.1, rfl, hjoined.2.2⟩,
                      items ++ [s.client.nextMessage o timestamp], ?_, ?_⟩⟩
                  · simp only [← hjoined.2.2, Function.update_self]
                    exact hring.push hkeep hholds
                  · rw [List.map_append, List.map_append, ← hitems, List.append_assoc]
        · exact absurd hjoined hnot
      · -- a rejected object leaves no trace
        simp only [calls.write_of_not_fits hopen _ hfits timestamp, Bool.false_eq_true, if_false,
          Function.update_eq_self] at hstep
        cases hstep
        exact h

/-- A read. -/
theorem Inv.read {s s' : Sessions σ} (h : s.Inv calls) (hstep : s.step calls .read = some s') :
    s'.Inv calls := by
  rw [step] at hstep
  cases hopen : s.server.isOpen with
  | false =>
      simp only [calls.read_of_closed hopen, hopen, Bool.false_eq_true, if_false,
        Function.update_eq_self] at hstep
      cases hstep
      exact h
  | true =>
      cases hsegment : s.segments s.serverAt with
      | mk store reader writer =>
          rw [hsegment] at hstep
          cases reader with
          | zero =>
              -- no data, and no trace of the call
              simp only [calls.read_of_zero hopen, hopen, if_true, answer, List.append_nil] at hstep
              rw [← hsegment, Function.update_eq_self] at hstep
              cases hstep
              exact h
          | succ reader =>
              rcases h.ring with ⟨hjoined, items, hring, hitems⟩ | ⟨-, -, hempty⟩
              · rw [hsegment] at hring
                -- the first message in the ring is returned
                obtain ⟨m, rest, rfl, hholds⟩ := hring.exists_cons
                obtain ⟨buffer, hread⟩ := calls.read_of_pos hopen reader writer hholds
                simp only [hread, hopen, if_true, answer] at hstep
                cases hstep
                refine ⟨Nat.mod_lt _ (by decide), ?_, fun _ => h.server_lt hopen, h.client_lt,
                  .inl ⟨⟨rfl, hjoined.2⟩, rest, ?_, ?_⟩⟩
                · rw [h.name_eq, hopen]
                · simp only [Function.update_self]
                  exact hring.pop le_rfl
                · rw [← hitems, List.append_assoc]
                  rfl
              · -- without a writer the count is zero
                have hzero := (hempty hopen).1
                rw [hsegment] at hzero
                cases hzero

/-! ## Runs -/

/-- An orderly and aligned call keeps the invariant. -/
theorem Inv.step {s s' : Sessions σ} (h : s.Inv calls) {a : SessionAction} (horderly : s.Orderly a)
    (haligned : s.Aligned a) (hstep : s.step calls a = some s') : s'.Inv calls := by
  cases a with
  | openServer =>
      cases hstep
      exact h.openServer
  | closeServer =>
      cases hstep
      exact (h.closeServer (h.quiet_of_length horderly)).1
  | freshServer =>
      cases hstep
      obtain ⟨hinv, hclosed, hquiet⟩ := h.closeServer (h.quiet_of_length horderly)
      exact hinv.freshServer hclosed hquiet
  | openClient =>
      cases hstep
      exact h.openClient haligned
  | closeClient =>
      cases hstep
      exact (h.closeClient (h.quiet_of_length horderly)).1
  | freshClient =>
      cases hstep
      obtain ⟨hinv, -, hquiet⟩ := h.closeClient (h.quiet_of_length horderly)
      exact hinv.freshClient hquiet
  | write o timestamp => exact h.write haligned hstep
  | read => exact h.read hstep

/-- After an orderly and aligned run everything written is returned. -/
theorem allReturned_of_along (calls : RingCalls σ) {actions : List SessionAction} {s : Sessions σ}
    (halong : Along (step calls) (fun s a => s.Orderly a ∧ s.Aligned a) (initial calls) actions)
    (hrun : runAll (step calls) (initial calls) actions = some s) : s.AllReturned calls :=
  Inv.allReturned (runAll_invariant (fun _ _ _ h ha hstep => h.step ha.1 ha.2 hstep)
    (inv_initial calls) halong hrun)

/-- **Sessions of shared memory and of shared files.** Whatever is opened, exchanged, closed and
replaced in an orderly way: if every client is opened with the cursor of the server, and writes to
what the server has open, then every message written after the latest open is returned. -/
theorem allReturned_of_aligned (actions : List SessionAction) :
    (∀ s, Along (step SharedMemory.calls) (fun s a => s.Orderly a ∧ s.Aligned a)
        (initial SharedMemory.calls) actions →
      runAll (step SharedMemory.calls) (initial SharedMemory.calls) actions = some s →
      s.AllReturned SharedMemory.calls) ∧
    (∀ s, Along (step SharedFile.calls) (fun s a => s.Orderly a ∧ s.Aligned a)
        (initial SharedFile.calls) actions →
      runAll (step SharedFile.calls) (initial SharedFile.calls) actions = some s →
      s.AllReturned SharedFile.calls) := by
  constructor
  · intro s halong hrun
    exact allReturned_of_along SharedMemory.calls halong hrun
  · intro s halong hrun
    exact allReturned_of_along SharedFile.calls halong hrun

/-- A client that has sent a ping is closed and opened again, and sends another one. -/
def reopenedClient : List SessionAction :=
  [.openServer, .openClient, .write .ping 7, .read, .closeClient, .openClient, .write .ping 8]

/-- The second ping is returned, too. -/
theorem allReturned_of_aligned_reopenedClient :
    (∃ s, runAll (step SharedMemory.calls) (initial SharedMemory.calls) reopenedClient = some s ∧
      s.AllReturned SharedMemory.calls) ∧
    (∃ s, runAll (step SharedFile.calls) (initial SharedFile.calls) reopenedClient = some s ∧
      s.AllReturned SharedFile.calls) :=
  ⟨⟨_, rfl, (allReturned_of_aligned reopenedClient).1 _ (by decide +kernel) rfl⟩,
    ⟨_, rfl, (allReturned_of_aligned reopenedClient).2 _ (by decide +kernel) rfl⟩⟩

/-- A client that has sent a ping is replaced, and the new one sends another ping. -/
def replacedClient : List SessionAction :=
  [.openServer, .openClient, .write .ping 7, .read, .freshClient, .openClient, .write .ping 8]

/-- A server that has read a ping is closed and opened again, and a new client sends a ping. -/
def reopenedServer : List SessionAction :=
  [.openServer, .openClient, .write .ping 7, .read, .closeServer, .openServer, .freshClient,
    .openClient, .write .ping 8]

/-- The server goes on with its second slot, the new clients start with the first. -/
theorem not_allReturned :
    (¬ ∀ actions s, Along (step SharedMemory.calls) Orderly (initial SharedMemory.calls) actions →
      runAll (step SharedMemory.calls) (initial SharedMemory.calls) actions = some s →
      s.AllReturned SharedMemory.calls) ∧
    (¬ ∀ actions s, Along (step SharedFile.calls) Orderly (initial SharedFile.calls) actions →
      runAll (step SharedFile.calls) (initial SharedFile.calls) actions = some s →
      s.AllReturned SharedFile.calls) := by
  constructor
  · intro h
    have htimes := congrArg resultTimes (h replacedClient _ (by decide +kernel) rfl)
    exact absurd htimes (by decide +kernel)
  · intro h
    have htimes := congrArg resultTimes (h reopenedServer _ (by decide +kernel) rfl)
    exact absurd htimes (by decide +kernel)

end Sessions

end IpcPerformance
