import IpcPerformance.Benchmark.Clients
import IpcPerformance.Library.Context

/-! # The two processes of a benchmark

A writer and a reader with a handler between them: `run_client` in the one process and `run_server` in
the other, in any order of their calls. The writer may draw its bytes, look at the clock or be blocked
while the reader waits, reads or measures. The pair is a program in the context of a machine, so that it
runs on the abstract queue and on the handler classes.

* `ProcessPair.Inv` — what holds after every run: the reader has read a prefix of what the writer has
  had accepted, numbered from one.
* `ProcessPair.settles` — as long as the reader does not give up, the pair gets done. -/

namespace IpcPerformance

/-- The message an answer brings. -/
def Answer.message? : Answer → Option (DataHeader × DataObject)
  | message arrival o => some (arrival.header, o)
  | _ => none

/-- The messages among the answers. -/
def messagesRead (answers : List Answer) : List (DataHeader × DataObject) :=
  answers.filterMap Answer.message?

theorem messagesRead_concat (answers : List Answer) (answer : Answer) :
    messagesRead (answers ++ [answer]) = messagesRead answers ++ answer.message?.toList := by
  unfold messagesRead
  rw [List.filterMap_append]
  cases h : answer.message? <;> simp [h]

/-- The arrivals are those of the messages. -/
theorem arrivals_map_header (answers : List Answer) :
    (arrivals answers).map Arrival.header = (messagesRead answers).map Prod.fst := by
  unfold arrivals messagesRead
  rw [List.map_filterMap, List.map_filterMap]
  congr 1
  funext answer
  cases answer <;> rfl

/-- There are as many of them. -/
theorem length_arrivals (answers : List Answer) :
    (arrivals answers).length = (messagesRead answers).length := by
  have hmap := congrArg List.length (arrivals_map_header answers)
  rwa [List.length_map, List.length_map] at hmap

/-- Ids count the headers from one. -/
def Numbered (headers : List DataHeader) : Prop :=
  ∀ n header, headers[n]? = some header → header.id = UInt32.ofNat (n + 1)

theorem Numbered.of_prefix {headers front : List DataHeader} (h : Numbered headers)
    (hfront : front <+: headers) : Numbered front := by
  obtain ⟨back, rfl⟩ := hfront
  intro n header hn
  have hlt : n < front.length := (List.getElem?_eq_some_iff.mp hn).1
  exact h n header (by rw [List.getElem?_append_left hlt, hn])

/-- The next header has the next id. -/
theorem Numbered.concat {headers : List DataHeader} (h : Numbered headers) {header : DataHeader}
    (hid : header.id = UInt32.ofNat (headers.length + 1)) : Numbered (headers ++ [header]) := by
  intro n header' hn
  rcases lt_trichotomy n headers.length with hlt | rfl | hgt
  · rw [List.getElem?_append_left hlt] at hn
    exact h n header' hn
  · rw [List.getElem?_concat_length] at hn
    rw [← Option.some.inj hn, hid]
  · rw [List.getElem?_eq_none (by rw [List.length_append, List.length_singleton]; omega)] at hn
    cases hn

/-! ## Pairs -/

/-- The processes, and what they have done. -/
structure Processes (γ β : Type) where
  /-- The writer. -/
  client : γ
  /-- The reader. -/
  server : ServerState β
  /-- What the writer has had accepted, as the messages it is to become. -/
  accepted : List (DataHeader × DataObject)
  /-- What the reader has been answered. -/
  answers : List Answer

namespace Processes

variable {γ β : Type}

/-- What the reader has read. -/
def received (p : Processes γ β) : List (DataHeader × DataObject) := messagesRead p.answers

/-- How many messages are on their way. -/
def inFlight (p : Processes γ β) : ℕ := p.accepted.length - p.received.length

/-- The reader has been answered. -/
def served (p : Processes γ β) (answer : Answer) (server : ServerState β) : Processes γ β :=
  { p with server, answers := p.answers ++ [answer] }

@[simp] theorem client_served (p : Processes γ β) (answer : Answer) (server : ServerState β) :
    (p.served answer server).client = p.client := rfl

@[simp] theorem server_served (p : Processes γ β) (answer : Answer) (server : ServerState β) :
    (p.served answer server).server = server := rfl

@[simp] theorem accepted_served (p : Processes γ β) (answer : Answer) (server : ServerState β) :
    (p.served answer server).accepted = p.accepted := rfl

@[simp] theorem answers_served (p : Processes γ β) (answer : Answer) (server : ServerState β) :
    (p.served answer server).answers = p.answers ++ [answer] := rfl

@[simp] theorem received_served (p : Processes γ β) (answer : Answer) (server : ServerState β) :
    (p.served answer server).received = p.received ++ answer.message?.toList :=
  messagesRead_concat p.answers answer

/-- A `write` has returned. -/
def wrote (p : Processes γ β) (ok : Bool) (o : DataObject) (timestamp : Int64) (client : γ) :
    Processes γ β :=
  { p with
    client
    accepted :=
      if ok then
        p.accepted ++ [Channel.message (UInt32.ofNat (p.accepted.length + 1)) o timestamp]
      else p.accepted }

end Processes

/-- What happens next. -/
inductive Choice (α : Type)
  /-- A call of the writer returns; a `write` has had the timestamp from `get_timestamp`. -/
  | client (answer : α) (timestamp : Int64)
  /-- `await_data` of the reader returns. -/
  | awaited (ready : Bool)
  /-- `read` of the reader returns; the clock before and after the call. -/
  | read (before after : Int64)

/-- Nothing gets done: the reader has waited in vain. -/
def Choice.idle {α : Type} : Choice α → Bool
  | awaited ready => !ready
  | _ => false

/-- The reader's answer to a call of `read` that has returned. -/
def Answer.ofRead (before after : Int64) : Except Fault ReadResult → Option Answer
  | .ok (.ok (header, o)) => some (.message ⟨header, before, after⟩ o)
  | .ok (.error e) => some (.error e before after)
  | .error _ => none

/-- There is something to read. -/
def HandlerReply.Ready : HandlerReply → Prop
  | read result => result ≠ .ok (.error .noDataAvailable)
  | written _ => False

instance : (reply : HandlerReply) → Decidable reply.Ready
  | .read (.ok (.error e)) => decidable_of_iff (e ≠ .noDataAvailable) (by simp [HandlerReply.Ready])
  | .read (.ok (.ok m)) => .isTrue (by simp [HandlerReply.Ready])
  | .read (.error e) => .isTrue (by simp [HandlerReply.Ready])
  | .written _ => .isFalse id

/-- `run_client` of the one process and `run_server` of the other. -/
structure ProcessPair (α γ β : Type) where
  /-- The writer. -/
  client : ClientLoop α γ
  /-- The reader. -/
  server : ServerLoop β

namespace ProcessPair

variable {α γ β : Type}

/-- What a process asks of its handler. Whether there is data to wait for is what `read` would be
answered. -/
def request (pair : ProcessPair α γ β) (p : Processes γ β) : Choice α → Request HandlerCall
  | .client _ timestamp =>
      match pair.client.object p.client with
      | some o => .call (.write o timestamp)
      | none => .none
  | .awaited true => .probe .read
  | .awaited false => .none
  | .read _ _ => .call .read

/-- How the process goes on. -/
def next (pair : ProcessPair α γ β) (p : Processes γ β) (choice : Choice α)
    (reply : Option HandlerReply) : Option (Processes γ β) :=
  match choice, reply with
  | .client answer timestamp, reply =>
      match pair.client.object p.client, reply with
      | none, none => (pair.client.step p.client answer).map fun client => { p with client }
      | some o, some (.written ok) =>
          if pair.client.result answer = some ok then
            (pair.client.step p.client answer).map (p.wrote ok o timestamp)
          else none
      | _, _ => none
  | .awaited true, some reply =>
      if reply.Ready then (pair.server.step p.server (.awaited true)).map (p.served (.awaited true))
      else none
  | .awaited false, none =>
      (pair.server.step p.server (.awaited false)).map (p.served (.awaited false))
  | .read before after, some (.read result) =>
      (Answer.ofRead before after result).bind fun answer =>
        (pair.server.step p.server answer).map (p.served answer)
  | _, _ => none

/-- The pair as a program around its handler. -/
def context (pair : ProcessPair α γ β) :
    Context HandlerCall HandlerReply (Choice α) (Processes γ β) where
  request := pair.request
  next := pair.next

/-- Both begin. -/
def start (pair : ProcessPair α γ β) (client : γ) (fields : β) : Processes γ β :=
  ⟨client, pair.server.start fields, [], []⟩

/-! ## What a choice can do -/

variable {pair : ProcessPair α γ β} {σ : Type} {m : Machine HandlerCall HandlerReply σ}
  {p p' : Processes γ β} {s s' : σ} {choice : Choice α}

/-- **What a choice can do**: a call of the writer that is no `write`, a `write`, a wait, or a `read`. -/
theorem step_cases (h : pair.context.step m (p, s) choice = some (p', s')) :
    (∃ answer timestamp client, choice = .client answer timestamp ∧
      pair.client.object p.client = none ∧ pair.client.step p.client answer = some client ∧
      p' = { p with client } ∧ s' = s) ∨
    (∃ answer timestamp o ok client, choice = .client answer timestamp ∧
      pair.client.object p.client = some o ∧ m s (.write o timestamp) = some (.written ok, s') ∧
      pair.client.result answer = some ok ∧ pair.client.step p.client answer = some client ∧
      p' = p.wrote ok o timestamp client) ∨
    (∃ ready server, choice = .awaited ready ∧
      (ready = true → ∃ reply t, m s .read = some (reply, t) ∧ reply.Ready) ∧
      pair.server.step p.server (.awaited ready) = some server ∧
      p' = p.served (.awaited ready) server ∧ s' = s) ∨
    (∃ before after result answer server, choice = .read before after ∧
      m s .read = some (.read result, s') ∧ Answer.ofRead before after result = some answer ∧
      pair.server.step p.server answer = some server ∧ p' = p.served answer server) := by
  rcases Context.step_cases h with ⟨hrequest, hnext, rfl⟩ | ⟨i, reply, hrequest, hm, hnext⟩ |
    ⟨i, reply, t, hrequest, hm, hnext, rfl⟩
  · -- without the handler
    rcases choice with ⟨answer, timestamp⟩ | ready | ⟨before, after⟩
    · cases hobject : pair.client.object p.client with
      | none =>
          simp only [context, next, hobject] at hnext
          obtain ⟨client, hstep, rfl⟩ := Option.map_eq_some_iff.mp hnext
          exact .inl ⟨answer, timestamp, client, rfl, rfl, hstep, rfl, rfl⟩
      | some o =>
          simp only [context, request, hobject] at hrequest
          cases hrequest
    · cases ready with
      | true => cases hrequest
      | false =>
          obtain ⟨server, hstep, rfl⟩ := Option.map_eq_some_iff.mp hnext
          exact .inr (.inr (.inl ⟨false, server, rfl, nofun, hstep, rfl, rfl⟩))
    · cases hrequest
  · -- a call of the handler
    rcases choice with ⟨answer, timestamp⟩ | ready | ⟨before, after⟩
    · cases hobject : pair.client.object p.client with
      | none =>
          simp only [context, request, hobject] at hrequest
          cases hrequest
      | some o =>
          simp only [context, request, hobject] at hrequest
          cases hrequest
          cases reply with
          | read result =>
              simp only [context, next, hobject] at hnext
              cases hnext
          | written ok =>
              simp only [context, next, hobject] at hnext
              split at hnext
              · rename_i hresult
                obtain ⟨client, hstep, rfl⟩ := Option.map_eq_some_iff.mp hnext
                exact .inr (.inl ⟨answer, timestamp, o, ok, client, rfl, rfl, hm, hresult, hstep, rfl⟩)
              · cases hnext
    · cases ready <;> cases hrequest
    · cases hrequest
      cases reply with
      | written ok => cases hnext
      | read result =>
          obtain ⟨answer, hanswer, hrest⟩ := Option.bind_eq_some_iff.mp hnext
          obtain ⟨server, hstep, rfl⟩ := Option.map_eq_some_iff.mp hrest
          exact .inr (.inr (.inr ⟨before, after, result, answer, server, rfl, hm, hanswer, hstep, rfl⟩))
  · -- a probe
    rcases choice with ⟨answer, timestamp⟩ | ready | ⟨before, after⟩
    · cases hobject : pair.client.object p.client with
      | none =>
          simp only [context, request, hobject] at hrequest
          cases hrequest
      | some o =>
          simp only [context, request, hobject] at hrequest
          cases hrequest
    · cases ready with
      | false => cases hrequest
      | true =>
          cases hrequest
          simp only [context, next] at hnext
          split at hnext
          · rename_i hready
            obtain ⟨server, hstep, rfl⟩ := Option.map_eq_some_iff.mp hnext
            exact .inr (.inr (.inl ⟨true, server, rfl, fun _ => ⟨reply, t, hm, hready⟩, hstep, rfl, rfl⟩))
          · cases hnext
    · cases hrequest

/-- A call of the writer that is no `write`. -/
theorem step_prepare {answer : α} {client : γ} (timestamp : Int64)
    (hobject : pair.client.object p.client = none)
    (hclient : pair.client.step p.client answer = some client) :
    pair.context.step m (p, s) (.client answer timestamp) = some ({ p with client }, s) := by
  refine Context.step_of_none ?_ ?_
  · simp only [context, request, hobject]
  · simp only [context, next, hobject, hclient, Option.map_some]

/-- A `write`. -/
theorem step_write {answer : α} {client : γ} {o : DataObject} {timestamp : Int64} {ok : Bool}
    (hobject : pair.client.object p.client = some o)
    (hwrite : m s (.write o timestamp) = some (.written ok, s'))
    (hresult : pair.client.result answer = some ok)
    (hclient : pair.client.step p.client answer = some client) :
    pair.context.step m (p, s) (.client answer timestamp) =
      some (p.wrote ok o timestamp client, s') := by
  refine Context.step_of_call ?_ hwrite ?_
  · simp only [context, request, hobject]
  · simp only [context, next, hobject, if_pos hresult, hclient, Option.map_some]

/-- A wait that is over. -/
theorem step_awaited {reply : HandlerReply} {t : σ} {server : ServerState β}
    (hread : m s .read = some (reply, t)) (hready : reply.Ready)
    (hserver : pair.server.step p.server (.awaited true) = some server) :
    pair.context.step m (p, s) (.awaited true) = some (p.served (.awaited true) server, s) := by
  refine Context.step_of_probe rfl hread ?_
  simp only [context, next, if_pos hready, hserver, Option.map_some]

/-- A `read`. -/
theorem step_read {before after : Int64} {result : Except Fault ReadResult} {answer : Answer}
    {server : ServerState β} (hread : m s .read = some (.read result, s'))
    (hanswer : Answer.ofRead before after result = some answer)
    (hserver : pair.server.step p.server answer = some server) :
    pair.context.step m (p, s) (.read before after) = some (p.served answer server, s') := by
  refine Context.step_of_call rfl hread ?_
  simp only [context, next, hanswer, Option.bind_some, hserver, Option.map_some]

end ProcessPair

/-! ## The calls of the abstract queue -/

namespace Channel

variable {capacity : Capacity} {s s' : Channel}

/-- A write is accepted if the object fits, and rejected if it does not. -/
theorem write_cases {o : DataObject} {timestamp : Int64} {ok : Bool}
    (h : machine capacity s (.write o timestamp) = some (.written ok, s')) :
    (ok = true ∧ o.Fits ∧
      s' = ⟨s.lastId + 1, s.queue ++ [message (s.lastId + 1) o timestamp]⟩) ∨
    (ok = false ∧ ¬ o.Fits ∧ s' = s) := by
  simp only [machine] at h
  split_ifs at h with hfits hroom
  · cases h
    exact .inl ⟨rfl, hfits, rfl⟩
  · cases h
    exact .inr ⟨rfl, hfits, rfl⟩

/-- A read takes the message at the front, if there is one. -/
theorem read_cases {reply : HandlerReply} (h : machine capacity s .read = some (reply, s')) :
    (s.queue = [] ∧ reply = .read (.ok (.error .noDataAvailable)) ∧ s' = s) ∨
    (∃ m queue, s.queue = m :: queue ∧ reply = .read (.ok (.ok m)) ∧ s' = { s with queue }) := by
  cases hqueue : s.queue with
  | nil =>
      rw [machine, hqueue] at h
      cases h
      exact .inl ⟨rfl, rfl, rfl⟩
  | cons m queue =>
      rw [machine, hqueue] at h
      cases h
      exact .inr ⟨m, queue, rfl, rfl, rfl⟩

/-- A queue blocks no write unless there is something to read. -/
theorem exists_write (capacity : Capacity) (s : Channel) (o : DataObject) (timestamp : Int64) :
    (∃ ok s', machine capacity s (.write o timestamp) = some (.written ok, s')) ∨
      s.queue ≠ [] := by
  by_cases hfits : o.Fits
  · by_cases hroom : capacity.holds (s.queue ++ [message (s.lastId + 1) o timestamp]) = true
    · exact .inl ⟨true, _, by rw [machine, if_pos hfits, if_pos hroom]⟩
    · refine .inr fun hnil => hroom ?_
      rw [hnil, List.nil_append]
      exact capacity.holds_singleton ⟨hfits, _, _, rfl⟩
  · exact .inl ⟨false, s, by rw [machine, if_neg hfits]⟩

end Channel

/-! ## What holds after every run -/

/-- A reader that stops after `n` messages: as long as they are numbered, it wants more until it has had
them all. -/
def ServerLoop.CountsTo {β : Type} (loop : ServerLoop β) (fields : β) (n : ℕ) : Prop :=
  ∀ messages : List Arrival, Numbered (messages.map Arrival.header) → messages.length ≤ n →
    loop.continues (messages.foldl loop.received fields) = decide (messages.length < n)

namespace ProcessPair

variable {α γ β : Type}

/-- The writer has had the first parcels accepted, and goes on with the others or has been rejected. -/
def Writes (pair : ProcessPair α γ β) (Todo : γ → List Parcel → Prop) (parcels : List Parcel)
    (p : Processes γ β) : Prop :=
  ∃ written rest, parcels = written ++ rest ∧
    List.Forall₂ (fun parcel m => parcel.Holds m.2) written p.accepted ∧
    (Todo p.client rest ∨
      (pair.client.returned p.client = some false ∧
        ∃ parcel later, rest = parcel :: later ∧ ¬ parcel.Fits))

/-- What holds of the pair and the queue between them. -/
structure Inv (pair : ProcessPair α γ β) (Todo : γ → List Parcel → Prop) (fields : β)
    (parcels : List Parcel) (p : Processes γ β) (s : Channel) : Prop where
  /-- What has been accepted has been read or is on its way. -/
  queue : p.received ++ s.queue = p.accepted
  /-- The writer has counted it. -/
  lastId : s.lastId = UInt32.ofNat p.accepted.length
  /-- It has been numbered. -/
  numbered : Numbered (p.accepted.map Prod.fst)
  /-- Its headers belong to its objects, which fit. -/
  messages : AllMessages p.accepted
  /-- The reader has made its calls. -/
  run : runAll pair.server.step (pair.server.start fields) p.answers = some p.server
  /-- Nothing has failed. -/
  works : ∀ answer ∈ p.answers, answer.Works
  /-- The writer has written its parcels. -/
  writes : pair.Writes Todo parcels p

/-- What a pair has to do. -/
structure Task (pair : ProcessPair α γ β) (InRange : α → Prop) (Todo : γ → List Parcel → Prop)
    (work : γ → ℕ) (fields : β) (parcels : List Parcel) : Prop where
  /-- The writer writes its parcels. -/
  sends : pair.client.Sends InRange Todo work
  /-- The reader wants as many messages. -/
  counts : pair.server.CountsTo fields parcels.length

/-- The answers of the writer's calls are in range. -/
def ChoiceInRange (InRange : α → Prop) : Choice α → Prop
  | .client answer _ => InRange answer
  | _ => True

section Invariant

variable {pair : ProcessPair α γ β} {InRange : α → Prop} {Todo : γ → List Parcel → Prop}
  {work : γ → ℕ} {fields : β} {parcels : List Parcel} {p p' : Processes γ β} {s s' : Channel}
  {capacity : Capacity} {choice : Choice α}

/-- It holds at the start. -/
theorem inv_start {client : γ} (hclient : Todo client parcels) :
    pair.Inv Todo fields parcels (pair.start client fields) .empty where
  queue := rfl
  lastId := rfl
  numbered n header hn := by cases hn
  messages := allMessages_nil
  run := rfl
  works answer hanswer := absurd hanswer List.not_mem_nil
  writes := ⟨[], parcels, rfl, .nil, .inl hclient⟩

/-- An answer that brings no message, and no failure. -/
theorem Inv.served_of_none (h : pair.Inv Todo fields parcels p s) {answer : Answer}
    {server : ServerState β} (hstep : pair.server.step p.server answer = some server)
    (hnone : answer.message? = none) (hworks : answer.Works) :
    pair.Inv Todo fields parcels (p.served answer server) s where
  queue := by
    rw [Processes.received_served, hnone, Option.toList_none, List.append_nil]
    exact h.queue
  lastId := h.lastId
  numbered := h.numbered
  messages := h.messages
  run := runAll_concat_eq_some.mpr ⟨p.server, h.run, hstep⟩
  works := by
    intro answer' hanswer'
    rcases List.mem_append.mp hanswer' with hmem | hmem
    · exact h.works answer' hmem
    · rw [List.mem_singleton.mp hmem]
      exact hworks
  writes := h.writes

/-- The next message arrives. -/
theorem Inv.served_of_message (h : pair.Inv Todo fields parcels p s) {m : DataHeader × DataObject}
    {queue : List (DataHeader × DataObject)} (hqueue : s.queue = m :: queue) {before after : Int64}
    {server : ServerState β}
    (hstep : pair.server.step p.server (.message ⟨m.1, before, after⟩ m.2) = some server) :
    pair.Inv Todo fields parcels (p.served (.message ⟨m.1, before, after⟩ m.2) server)
      { s with queue } where
  queue := by
    rw [Processes.received_served, Processes.accepted_served, ← h.queue, hqueue, List.append_assoc]
    rfl
  lastId := h.lastId
  numbered := h.numbered
  messages := h.messages
  run := runAll_concat_eq_some.mpr ⟨p.server, h.run, hstep⟩
  works := by
    intro answer' hanswer'
    rcases List.mem_append.mp hanswer' with hmem | hmem
    · exact h.works answer' hmem
    · rw [List.mem_singleton.mp hmem]
      trivial
  writes := h.writes

/-- A call of the writer that is no `write`. -/
theorem Inv.prepared (htask : pair.Task InRange Todo work fields parcels)
    (h : pair.Inv Todo fields parcels p s) {answer : α} {client : γ} (hrange : InRange answer)
    (hobject : pair.client.object p.client = none)
    (hstep : pair.client.step p.client answer = some client) :
    pair.Inv Todo fields parcels { p with client } s ∧ work client < work p.client := by
  obtain ⟨written, rest, hparcels, hholds, htodo | ⟨hreturned, -⟩⟩ := h.writes
  · obtain ⟨htodo', hwork⟩ := htask.sends.prepare htodo hrange hobject hstep
    exact ⟨{ h with writes := ⟨written, rest, hparcels, hholds, .inl htodo'⟩ }, hwork⟩
  · rw [(htask.sends.halts hreturned).2 answer] at hstep
    cases hstep

/-- An object to write is the next parcel. -/
theorem Inv.exists_parcel (htask : pair.Task InRange Todo work fields parcels)
    (h : pair.Inv Todo fields parcels p s) {o : DataObject}
    (hobject : pair.client.object p.client = some o) :
    ∃ written parcel rest, parcels = written ++ parcel :: rest ∧
      List.Forall₂ (fun parcel m => parcel.Holds m.2) written p.accepted ∧
      Todo p.client (parcel :: rest) ∧ parcel.Holds o := by
  obtain ⟨written, rest, hparcels, hholds, htodo | ⟨hreturned, -⟩⟩ := h.writes
  · obtain ⟨parcel, later, rfl, hholds'⟩ := htask.sends.object htodo hobject
    exact ⟨written, parcel, later, hparcels, hholds, htodo, hholds'⟩
  · rw [(htask.sends.halts hreturned).1] at hobject
    cases hobject

/-- A `write`. -/
theorem Inv.wrote (htask : pair.Task InRange Todo work fields parcels)
    (h : pair.Inv Todo fields parcels p s) {answer : α} {o : DataObject} {timestamp : Int64} {ok : Bool}
    {client : γ} (hobject : pair.client.object p.client = some o)
    (hwrite : Channel.machine capacity s (.write o timestamp) = some (.written ok, s'))
    (hresult : pair.client.result answer = some ok)
    (hstep : pair.client.step p.client answer = some client) :
    pair.Inv Todo fields parcels (p.wrote ok o timestamp client) s' ∧ work client < work p.client := by
  obtain ⟨written, parcel, rest, hparcels, hholds, htodo, hparcel⟩ := h.exists_parcel htask hobject
  rcases Channel.write_cases hwrite with ⟨rfl, hfits, rfl⟩ | ⟨rfl, hfits, rfl⟩
  · -- the message is put behind the others, with the next number
    obtain ⟨htodo', hwork⟩ := htask.sends.accepted htodo hobject hresult hstep
    have hone : UInt32.ofNat 1 = 1 := rfl
    have hid : s.lastId + 1 = UInt32.ofNat (p.accepted.length + 1) := by
      rw [h.lastId, UInt32.ofNat_add, hone]
    refine ⟨?_, hwork⟩
    constructor
    · rw [hid]
      change p.received ++ (s.queue ++ [_]) = p.accepted ++ [_]
      rw [← List.append_assoc, h.queue]
    · change s.lastId + 1 = UInt32.ofNat (p.accepted ++ [_]).length
      rw [hid, List.length_append, List.length_singleton]
    · change Numbered ((p.accepted ++ [_]).map Prod.fst)
      rw [List.map_append, List.map_singleton]
      refine h.numbered.concat ?_
      rw [List.length_map]
      rfl
    · exact h.messages.concat _ hfits timestamp
    · exact h.run
    · exact h.works
    · refine ⟨written ++ [parcel], rest, ?_, ?_, .inl htodo'⟩
      · rw [hparcels, List.append_assoc, List.singleton_append]
      · exact List.rel_append hholds (.cons hparcel .nil)
  · -- the writer gives up
    obtain ⟨hreturned, hwork⟩ := htask.sends.rejected htodo hobject hresult hstep
    refine ⟨{ h with writes := ?_ }, hwork⟩
    exact ⟨written, parcel :: rest, hparcels, hholds,
      .inr ⟨hreturned, parcel, rest, rfl, mt (Parcel.fits_iff hparcel).mpr hfits⟩⟩

/-- **Every choice keeps the invariant.** -/
theorem Inv.step (htask : pair.Task InRange Todo work fields parcels)
    (h : pair.Inv Todo fields parcels p s) (hrange : ChoiceInRange InRange choice)
    (hstep : pair.context.step (Channel.machine capacity) (p, s) choice = some (p', s')) :
    pair.Inv Todo fields parcels p' s' := by
  rcases step_cases hstep with ⟨answer, timestamp, client, rfl, hobject, hclient, rfl, rfl⟩ |
    ⟨answer, timestamp, o, ok, client, rfl, hobject, hwrite, hresult, hclient, rfl⟩ |
    ⟨ready, server, rfl, -, hserver, rfl, rfl⟩ |
    ⟨before, after, result, answer, server, rfl, hread, hanswer, hserver, rfl⟩
  · exact (h.prepared htask hrange hobject hclient).1
  · exact (h.wrote htask hobject hwrite hresult hclient).1
  · exact h.served_of_none hserver rfl trivial
  · rcases Channel.read_cases hread with ⟨hqueue, hresult, rfl⟩ | ⟨m, queue, hqueue, hresult, rfl⟩
    · cases hresult
      cases hanswer
      exact h.served_of_none hserver rfl rfl
    · cases hresult
      cases hanswer
      exact h.served_of_message hqueue hserver

/-- What has been read is a prefix of what has been accepted. -/
theorem Inv.received_prefix (h : pair.Inv Todo fields parcels p s) : p.received <+: p.accepted :=
  ⟨s.queue, h.queue⟩

/-- What is on its way is in the queue. -/
theorem Inv.inFlight_eq (h : pair.Inv Todo fields parcels p s) : p.inFlight = s.queue.length := by
  rw [Processes.inFlight, ← h.queue, List.length_append, Nat.add_sub_cancel_left]

/-- No more is accepted than there are parcels. -/
theorem Inv.length_accepted_le (h : pair.Inv Todo fields parcels p s) :
    p.accepted.length ≤ parcels.length := by
  obtain ⟨written, rest, rfl, hholds, -⟩ := h.writes
  rw [List.length_append, ← hholds.length_eq]
  exact Nat.le_add_right _ _

/-- What has been read is numbered. -/
theorem Inv.numbered_arrivals (h : pair.Inv Todo fields parcels p s) :
    Numbered ((arrivals p.answers).map Arrival.header) := by
  rw [arrivals_map_header]
  exact h.numbered.of_prefix (h.received_prefix.map Prod.fst)

/-- The reader wants more exactly when it has not had all parcels. -/
theorem Inv.continues_eq (htask : pair.Task InRange Todo work fields parcels)
    (h : pair.Inv Todo fields parcels p s) :
    pair.server.continues p.server.fields = decide (p.received.length < parcels.length) := by
  have hlength : (arrivals p.answers).length = p.received.length := length_arrivals p.answers
  have hle := h.received_prefix.length_le.trans h.length_accepted_le
  rw [ServerLoop.fields_of_run h.run, htask.counts _ h.numbered_arrivals (hlength ▸ hle), hlength]

/-- The reader has not failed. -/
theorem Inv.phase_ne (h : pair.Inv Todo fields parcels p s) : p.server.phase ≠ .returned false :=
  ServerLoop.phase_ne_of_works h.works h.run

end Invariant

end ProcessPair

end IpcPerformance
