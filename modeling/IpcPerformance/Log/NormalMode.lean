import IpcPerformance.Benchmark.Processes
import IpcPerformance.Handler.Readiness
import IpcPerformance.Log.Client

/-! # The normal mode

Two processes, one with `run_client` and one with `run_server`, and a handler between them. Each has a
thread for its loop, and a main thread that sets `stop` when a key is pressed and closes the handler when
the thread has returned; the other process may go on. Everything may come in any order.

* `NormalMode.Inv` — what holds after every run.
* `NormalMode.logs_agree` — what the one process logs is what the other one has logged.
* `NormalMode.shuts_down` — when both have been stopped, both threads return after a few calls, unless the
  writer is blocked. -/

namespace IpcPerformance

/-- The two processes. -/
structure NormalMode where
  /-- The thread of the writer. -/
  client : RunClient
  /-- The thread of the reader. -/
  server : RunServer
  /-- `stop` in the process of the writer. -/
  clientStop : Bool
  /-- `stop` in the process of the reader. -/
  serverStop : Bool
  /-- The writer has closed its handler. -/
  clientClosed : Bool
  /-- The reader has closed its handler. -/
  serverClosed : Bool
  /-- The writer never returns from `write`. -/
  clientGone : Bool

/-- What happens next. -/
inductive NormalChoice
  /-- A key is pressed, for the reader or the writer. -/
  | stop (reader : Bool)
  /-- The thread has been joined, and the handler is closed. -/
  | close (reader : Bool)
  /-- The reader has closed its handler, and a `write` does not return: a signal has ended the process, or
  there is no room and nobody makes any. -/
  | gone
  /-- A call of the writer returns; a `write` has had the timestamp from `get_timestamp`. -/
  | client (reply : ClientReply) (timestamp : Int64)
  /-- A call of the reader returns. -/
  | server (reply : ServerReply)

/-- Nothing is done in the threads. -/
def NormalChoice.outside : NormalChoice → Bool
  | stop _ => true
  | close _ => true
  | gone => true
  | _ => false

/-- Whether `dynamic_cast<ipc::StreamSocket *>` succeeds. -/
def HandlerClass.isStream : HandlerClass → Bool
  | streamSocket _ => true
  | _ => false

namespace NormalMode

/-- Both begin. -/
def start : NormalMode := ⟨.start, .start, false, false, false, false, false⟩

/-- The connection of a stream has been closed by the writer. -/
def ended (isStream : Bool) (p : NormalMode) : Bool := p.clientClosed && isStream

/-- What is asked of the handler. Whether there is data to wait for is what `read` would be answered. A
`write` to a reader that has closed its handler is not followed up. -/
def request (p : NormalMode) : NormalChoice → Request HandlerCall
  | .client (.wrote _) timestamp =>
      match p.client.stage with
      | .writing _ address length =>
          if p.serverClosed then .none
          else .call (.write (.javaSymbol (testSymbol address length)) timestamp)
      | _ => .none
  | .server (.read _) => .call .read
  | .server (.awaited true) => .probe .read
  | _ => .none

/-- The calls of the writer that can return so: without its handler, or when the handler has answered. -/
def clientAnswers (p : NormalMode) : ClientReply → Option HandlerReply → Bool
  | .goesOn yes, none => yes = !p.clientStop
  | .generated _ _ _ _, none => true
  | .slept, none => true
  | .wrote ok, some (.written ok') => ok = ok'
  | .wrote _, none => p.serverClosed && !p.clientGone
  | _, _ => false

/-- What a `read` returns: at the end of a stream the connection is closed. -/
def readAnswer (ended : Bool) (result : ReadResult) : ReadResult :=
  if ended ∧ result = .error .noDataAvailable then .error .connectionClosed else result

/-- The calls of the reader. A connection that has been closed is not replaced by another one, as there is
no other writer. -/
def serverAnswers (isStream : Bool) (p : NormalMode) : ServerReply → Option HandlerReply → Bool
  | .goesOn yes, none => yes = !p.serverStop
  | .awaited false, none => true
  | .awaited true, some reply => decide reply.Ready || p.ended isStream
  | .read result, some (.read (.ok result')) => result = readAnswer (p.ended isStream) result'
  | .accepted false, none => p.ended isStream
  | _, _ => false

/-- How the threads go on. -/
def next (isStream : Bool) (p : NormalMode) (choice : NormalChoice) (answer : Option HandlerReply) :
    Option NormalMode :=
  match choice with
  | .stop true => some { p with serverStop := true }
  | .stop false => some { p with clientStop := true }
  | .close true =>
      if p.serverStop ∧ p.server.stage = .returned then some { p with serverClosed := true } else none
  | .close false =>
      if p.clientStop ∧ p.client.stage = .returned then some { p with clientClosed := true } else none
  | .gone =>
      match p.client.stage with
      | .writing _ _ _ => if p.serverClosed then some { p with clientGone := true } else none
      | _ => none
  | .client reply _ =>
      if p.clientAnswers reply answer then
        (p.client.step reply).map fun client => { p with client }
      else none
  | .server reply =>
      if p.serverAnswers isStream reply answer then
        (p.server.step isStream reply).map fun server => { p with server }
      else none

/-- The processes as a program around their handler. -/
def context (isStream : Bool) : Context HandlerCall HandlerReply NormalChoice NormalMode where
  request := request
  next := next isStream

variable {isStream : Bool} {σ : Type} {m : Machine HandlerCall HandlerReply σ} {p p' : NormalMode}
  {s s' : σ} {choice : NormalChoice}

/-- The writer goes on. -/
theorem next_client {reply : ClientReply} {timestamp : Int64} {answer : Option HandlerReply}
    (h : (context isStream).next p (.client reply timestamp) answer = some p') :
    p.clientAnswers reply answer = true ∧
      ∃ client, p.client.step reply = some client ∧ p' = { p with client } := by
  simp only [context, next] at h
  split at h
  · rename_i hanswers
    obtain ⟨client, hstep, rfl⟩ := Option.map_eq_some_iff.mp h
    exact ⟨hanswers, client, hstep, rfl⟩
  · cases h

/-- The reader goes on. -/
theorem next_server {reply : ServerReply} {answer : Option HandlerReply}
    (h : (context isStream).next p (.server reply) answer = some p') :
    p.serverAnswers isStream reply answer = true ∧
      ∃ server, p.server.step isStream reply = some server ∧ p' = { p with server } := by
  simp only [context, next] at h
  split at h
  · rename_i hanswers
    obtain ⟨server, hstep, rfl⟩ := Option.map_eq_some_iff.mp h
    exact ⟨hanswers, server, hstep, rfl⟩
  · cases h

/-- **What the writer can do**: it goes on without its handler, or a `write` returns, as the handler
answers it or to a reader that is closed. -/
theorem step_client {reply : ClientReply} {timestamp : Int64}
    (h : (context isStream).step m (p, s) (.client reply timestamp) = some (p', s')) :
    ((∀ ok, reply ≠ .wrote ok) ∧ (∀ yes, reply = .goesOn yes → yes = !p.clientStop) ∧
      ∃ client, p.client.step reply = some client ∧ p' = { p with client } ∧ s' = s) ∨
    (∃ ok ts address length client, reply = .wrote ok ∧ p.client.stage = .writing ts address length ∧
      (p.serverClosed = true ∧ s' = s ∨
        p.serverClosed = false ∧
          m s (.write (.javaSymbol (testSymbol address length)) timestamp) = some (.written ok, s')) ∧
      p.client.step (.wrote ok) = some client ∧ p' = { p with client }) := by
  obtain ⟨-, hnext, rfl⟩ | ⟨i, answer, hrequest, hm, hnext⟩ | ⟨i, answer, t, hrequest, -⟩ :=
    Context.step_cases h
  · -- nothing is asked of the handler
    obtain ⟨hanswers, client, hstep, rfl⟩ := next_client hnext
    cases reply with
    | wrote ok =>
        have hclosed : p.serverClosed = true := (Bool.and_eq_true_iff.mp hanswers).1
        cases hstage : p.client.stage with
        | writing ts address length =>
            exact .inr ⟨ok, ts, address, length, client, rfl, rfl, .inl ⟨hclosed, rfl⟩, hstep, rfl⟩
        | _ =>
            rw [RunClient.step, hstage] at hstep
            cases hstep
    | goesOn yes =>
        refine .inl ⟨fun _ heq => (by cases heq), fun yes' heq => ?_, client, hstep, rfl, rfl⟩
        cases heq
        exact of_decide_eq_true hanswers
    | _ =>
        exact .inl ⟨fun _ heq => (by cases heq), fun _ heq => (by cases heq), client, hstep, rfl, rfl⟩
  · -- the handler answers, so it is a `write` to an open reader
    obtain ⟨hanswers, client, hstep, rfl⟩ := next_client hnext
    cases reply with
    | wrote ok =>
        cases hstage : p.client.stage with
        | writing ts address length =>
            cases hclosed : p.serverClosed with
            | true =>
                simp only [context, request, hstage, hclosed, if_true] at hrequest
                cases hrequest
            | false =>
                simp only [context, request, hstage, hclosed, Bool.false_eq_true, if_false] at hrequest
                cases hrequest
                cases answer with
                | written ok' =>
                    obtain rfl := of_decide_eq_true hanswers
                    exact .inr ⟨ok, ts, address, length, client, rfl, rfl, .inr ⟨rfl, hm⟩, hstep, rfl⟩
                | read result => cases hanswers
        | _ =>
            simp only [context, request, hstage] at hrequest
            cases hrequest
    | _ => cases hrequest
  · -- the writer does not probe
    cases reply with
    | wrote ok =>
        simp only [context, request] at hrequest
        split at hrequest
        · split at hrequest <;> cases hrequest
        · cases hrequest
    | _ => cases hrequest

/-- **What the reader can do**: it goes on without a message, or a `read` returns. -/
theorem step_server {reply : ServerReply}
    (h : (context isStream).step m (p, s) (.server reply) = some (p', s')) :
    ((∀ result, reply ≠ .read result) ∧ (∀ yes, reply = .goesOn yes → yes = !p.serverStop) ∧
      ∃ server, p.server.step isStream reply = some server ∧ p' = { p with server } ∧ s' = s) ∨
    (∃ result server, reply = .read (readAnswer (p.ended isStream) result) ∧
      m s .read = some (.read (.ok result), s') ∧
      p.server.step isStream (.read (readAnswer (p.ended isStream) result)) = some server ∧
      p' = { p with server }) := by
  obtain ⟨hrequest, hnext, rfl⟩ | ⟨i, answer, hrequest, hm, hnext⟩ |
    ⟨i, answer, t, hrequest, hm, hnext, rfl⟩ := Context.step_cases h
  · -- nothing is asked of the handler
    obtain ⟨hanswers, server, hstep, rfl⟩ := next_server hnext
    cases reply with
    | read result => cases hrequest
    | goesOn yes =>
        refine .inl ⟨fun _ heq => (by cases heq), fun yes' heq => ?_, server, hstep, rfl, rfl⟩
        cases heq
        exact of_decide_eq_true hanswers
    | _ =>
        exact .inl ⟨fun _ heq => (by cases heq), fun _ heq => (by cases heq), server, hstep, rfl, rfl⟩
  · obtain ⟨hanswers, server, hstep, rfl⟩ := next_server hnext
    cases reply with
    | read result =>
        cases hrequest
        cases answer with
        | written ok => cases hanswers
        | read outcome =>
            cases outcome with
            | error fault => cases hanswers
            | ok result' =>
                obtain rfl := of_decide_eq_true hanswers
                exact .inr ⟨result', server, rfl, hm, hstep, rfl⟩
    | awaited ready => cases ready <;> cases hrequest
    | _ => cases hrequest
  · -- what `read` would be answered decides whether there is something to wait for
    obtain ⟨hanswers, server, hstep, rfl⟩ := next_server hnext
    cases reply with
    | awaited ready =>
        exact .inl ⟨fun _ heq => (by cases heq), fun _ heq => (by cases heq), server, hstep, rfl, rfl⟩
    | _ => cases hrequest

/-- What main does leaves the threads alone: a flag is set. -/
structure Flagged (p p' : NormalMode) : Prop where
  client : p'.client = p.client
  server : p'.server = p.server
  clientStop (h : p.clientStop = true) : p'.clientStop = true
  serverStop (h : p.serverStop = true) : p'.serverStop = true
  clientClosed (h : p.clientClosed = true) : p'.clientClosed = true
  serverClosed (h : p.serverClosed = true) : p'.serverClosed = true

/-- Main asks nothing of the handler that is about data. -/
theorem request_outside (houtside : choice.outside = true) : p.request choice = .none := by
  cases choice with
  | client reply timestamp => cases houtside
  | server reply => cases houtside
  | _ => rfl

/-- What happens outside of the threads. -/
theorem step_outside (houtside : choice.outside = true)
    (h : (context isStream).step m (p, s) choice = some (p', s')) : s' = s ∧ p.Flagged p' := by
  obtain ⟨-, hnext, rfl⟩ | ⟨i, answer, hrequest, -⟩ | ⟨i, answer, t, hrequest, -⟩ := Context.step_cases h
  · refine ⟨rfl, ?_⟩
    cases choice with
    | stop reader =>
        cases reader <;> cases hnext <;> exact ⟨rfl, rfl, by simp, by simp, id, id⟩
    | close reader =>
        cases reader <;> simp only [context, next] at hnext <;> split at hnext <;> cases hnext <;>
          exact ⟨rfl, rfl, id, id, by simp, by simp⟩
    | gone =>
        simp only [context, next] at hnext
        split at hnext
        · split at hnext <;> cases hnext
          exact ⟨rfl, rfl, id, id, id, id⟩
        · cases hnext
    | client reply timestamp => cases houtside
    | server reply => cases houtside
  · cases (request_outside houtside).symm.trans hrequest
  · cases (request_outside houtside).symm.trans hrequest

/-! ## What holds after every run -/

/-- The writer's rounds and the messages that came of them: same numbers, same symbols. -/
def written (rounds : List ClientEvent) : List (UInt32 × DataObject) :=
  rounds.map fun round => (round.i.toUInt32, .javaSymbol round.symbol)

/-- The writer has logged these rounds. -/
structure Logged (client : RunClient) (rounds : List ClientEvent) : Prop where
  /-- Its stream is plain. -/
  plain : client.cout.Plain
  /-- The rounds are what it has printed. -/
  text : client.cout.text = rounds.flatMap ClientEvent.text
  /-- They are counted from one. -/
  number : rounds.map ClientEvent.i = (List.range rounds.length).map fun n => Int32.ofNat (n + 1)
  /-- By the variable of the loop. -/
  next : client.i = Int32.ofNat (rounds.length + 1)

/-- **What holds after every run**: the reader has read, in order, some of what the writer has written,
and the rest is in the queue. What the writer has written later, to a reader that has closed its handler,
is lost. -/
structure Inv (isStream : Bool) (p : NormalMode) (s : Channel) (replies : List ServerReply)
    (sent later : List ClientEvent) : Prop where
  /-- The reader has been answered so. -/
  run : runAll (RunServer.step isStream) .start replies = some p.server
  /-- Without an error, except that the connection has been closed. -/
  errors : ∀ e ∈ replies.filterMap ServerReply.error?, e = .connectionClosed ∧ p.ended isStream = true
  /-- So it does not accept anybody before that. -/
  stage : p.server.stage = .accepting → p.ended isStream = true
  /-- The writer has logged its rounds. -/
  logged : Logged p.client (sent ++ later)
  /-- They are counted by its handler, too. -/
  lastId : s.lastId = UInt32.ofNat sent.length
  /-- Every `write` to an open reader has succeeded. -/
  ok : ∀ round ∈ sent, round.ok = true
  /-- What has been written to it has been read or is in the queue. -/
  queue : (replies.filterMap ServerReply.message? ++ s.queue).map (fun m => (m.1.id, m.2)) =
    written sent
  /-- As long as the reader is open, that is everything. -/
  later : p.serverClosed = false → later = []

/-- It holds at the start. -/
theorem inv_start (isStream : Bool) : Inv isStream start .empty [] [] [] where
  run := rfl
  errors _ h := absurd h List.not_mem_nil
  stage h := ServerStage.noConfusion h
  logged := ⟨OutputStream.plain_create, rfl, rfl, rfl⟩
  lastId := rfl
  ok _ h := absurd h List.not_mem_nil
  queue := rfl
  later _ := rfl

/-- A test symbol fits. -/
theorem testSymbol_fits (address : UInt64) (length : UInt32) :
    (DataObject.javaSymbol (testSymbol address length)).Fits := by
  have hle : DataHeader.headerSize + (16 + (ByteString.ofList (asBytes testName)).length) ≤
      bufferSize := by decide
  exact hle

variable {t t' : Channel} {replies : List ServerReply} {sent later rounds : List ClientEvent}
  {capacity : Capacity}

/-- A `write` is logged. -/
theorem Logged.wrote {client client' : RunClient} (h : Logged client rounds) {ok : Bool} {ts : Int64}
    {address : UInt64} {length : UInt32} (hstage : client.stage = .writing ts address length)
    (hstep : client.step (.wrote ok) = some client') :
    ∃ round, round.ok = ok ∧ round.symbol = testSymbol address length ∧
      round.i = Int32.ofNat (rounds.length + 1) ∧ Logged client' (rounds ++ [round]) := by
  obtain ⟨round, hround, hok, hi, hnext, hprints⟩ := RunClient.step_wrote h.plain hstep
  rw [hstage] at hround
  cases hround
  have hnumber : round.i = Int32.ofNat (rounds.length + 1) := hi.trans h.next
  refine ⟨round, hok, rfl, hnumber, hprints.plain h.plain, ?_, ?_, ?_⟩
  · rw [List.flatMap_append, ← h.text, List.flatMap_singleton]
    exact hprints.text_eq
  · rw [List.map_append, List.length_append, List.length_singleton, List.range_succ, List.map_append,
      h.number, List.map_singleton, List.map_singleton, hnumber]
  · rw [List.length_append, List.length_singleton, Int32.ofNat_add, ← h.next]
    exact hnext

/-- Main does something. -/
theorem Inv.flagged (h : Inv isStream p t replies sent later) (hflags : p.Flagged p') :
    Inv isStream p' t replies sent later := by
  have hended (hp : p.ended isStream = true) : p'.ended isStream = true := by
    obtain ⟨hclosed, hstream⟩ := Bool.and_eq_true_iff.mp hp
    exact Bool.and_eq_true_iff.mpr ⟨hflags.clientClosed hclosed, hstream⟩
  constructor
  · rw [hflags.server]
    exact h.run
  · exact fun e he => (h.errors e he).imp_right hended
  · rw [hflags.server]
    exact fun hstage => hended (h.stage hstage)
  · rw [hflags.client]
    exact h.logged
  · exact h.lastId
  · exact h.ok
  · exact h.queue
  · intro hopen
    refine h.later (Bool.eq_false_iff.mpr fun hclosed => ?_)
    rw [hflags.serverClosed hclosed] at hopen
    cases hopen

/-- The reader goes on. -/
theorem Inv.served (h : Inv isStream p t replies sent later) {reply : ServerReply} {server : RunServer}
    (hstep : p.server.step isStream reply = some server)
    (herror : ∀ e, reply.error? = some e → e = .connectionClosed ∧ p.ended isStream = true)
    (hqueue : reply.message?.toList ++ t'.queue = t.queue) (hid : t'.lastId = t.lastId) :
    Inv isStream { p with server } t' (replies ++ [reply]) sent later where
  run := runAll_concat_eq_some.mpr ⟨p.server, h.run, hstep⟩
  errors := by
    intro e he
    rw [List.filterMap_append] at he
    rcases List.mem_append.mp he with he | he
    · exact h.errors e he
    · obtain ⟨reply', hreply, he⟩ := List.mem_filterMap.mp he
      rw [List.mem_singleton.mp hreply] at he
      exact herror e he
  stage := by
    intro haccepting
    cases he : reply.error? with
    | none => exact absurd haccepting (RunServer.stage_ne_accepting he hstep)
    | some e => exact (herror e he).2
  logged := h.logged
  lastId := hid.trans h.lastId
  ok := h.ok
  queue := by
    have hlast : [reply].filterMap ServerReply.message? = reply.message?.toList := by
      cases hreply : reply.message? <;> simp [hreply]
    rw [List.filterMap_append, List.append_assoc, hlast, hqueue]
    exact h.queue
  later := h.later

/-- A `write` returns. -/
theorem Inv.wrote (h : Inv isStream p t replies sent later) {ok : Bool} {timestamp ts : Int64}
    {address : UInt64} {length : UInt32} {client : RunClient}
    (hstage : p.client.stage = .writing ts address length) (hopen : p.serverClosed = false)
    (hwrite : Channel.machine capacity t (.write (.javaSymbol (testSymbol address length)) timestamp) =
      some (.written ok, t')) (hstep : p.client.step (.wrote ok) = some client) :
    ∃ round, Inv isStream { p with client } t' replies (sent ++ [round]) later := by
  obtain rfl := h.later hopen
  obtain ⟨round, rfl, hsymbol, hi, hlogged⟩ := h.logged.wrote hstage hstep
  rcases Channel.write_cases hwrite with ⟨hok, -, rfl⟩ | ⟨-, hfits, -⟩
  · have hid : round.i.toUInt32 = t.lastId + 1 := by
      rw [hi, h.lastId, Int32.ofNat_add]
      simp
      rfl
    refine ⟨round, ?_⟩
    constructor
    · exact h.run
    · exact h.errors
    · exact h.stage
    · rw [List.append_nil] at hlogged ⊢
      exact hlogged
    · rw [List.length_append, UInt32.ofNat_add, ← h.lastId]
      rfl
    · exact List.forall_mem_append.mpr ⟨h.ok, List.forall_mem_singleton.mpr hok⟩
    · rw [← List.append_assoc, List.map_append, h.queue, List.map_singleton, written, written,
        List.map_append, List.map_singleton, hid, hsymbol]
      rfl
    · exact fun _ => rfl
  · exact absurd (testSymbol_fits _ _) hfits

/-- **Every choice keeps the invariant.** -/
theorem Inv.step (h : Inv isStream p t replies sent later)
    (hstep : (context isStream).step (Channel.machine capacity) (p, t) choice = some (p', t')) :
    ∃ replies' sent' later', Inv isStream p' t' replies' sent' later' := by
  have houtside (hchoice : choice.outside = true) :
      ∃ replies' sent' later', Inv isStream p' t' replies' sent' later' := by
    obtain ⟨rfl, hflags⟩ := step_outside hchoice hstep
    exact ⟨replies, sent, later, h.flagged hflags⟩
  cases choice with
  | stop reader => exact houtside rfl
  | close reader => exact houtside rfl
  | gone => exact houtside rfl
  | client reply timestamp =>
      obtain ⟨hne, -, client, hclient, rfl, rfl⟩ |
        ⟨ok, ts, address, length, client, rfl, hstage, ⟨hclosed, rfl⟩ | ⟨hopen, hwrite⟩, hclient, rfl⟩ :=
          step_client hstep
      · obtain ⟨hcout, hi⟩ := RunClient.step_of_ne hne hclient
        refine ⟨replies, sent, later, { h with logged := ?_ }⟩
        exact ⟨hcout ▸ h.logged.plain, hcout ▸ h.logged.text, h.logged.number, hi.trans h.logged.next⟩
      · -- nobody will read it
        obtain ⟨round, -, -, -, hlogged⟩ := h.logged.wrote hstage hclient
        refine ⟨replies, sent, later ++ [round], { h with logged := ?_, later := fun hopen => ?_ }⟩
        · rw [← List.append_assoc]
          exact hlogged
        · rw [hclosed] at hopen
          cases hopen
      · obtain ⟨round, h'⟩ := h.wrote hstage hopen hwrite hclient
        exact ⟨replies, sent ++ [round], later, h'⟩
  | server reply =>
      obtain ⟨hreply, -, server, hserver, rfl, rfl⟩ | ⟨result, server, rfl, hread, hserver, rfl⟩ :=
        step_server hstep
      · have hnone : reply.error? = none ∧ reply.message? = none := by
          cases reply with
          | read result => exact absurd rfl (hreply result)
          | _ => exact ⟨rfl, rfl⟩
        refine ⟨replies ++ [reply], sent, later, h.served hserver (fun e he => ?_) ?_ rfl⟩
        · rw [hnone.1] at he
          cases he
        · rw [hnone.2]
          rfl
      · rcases Channel.read_cases hread with ⟨-, hresult, rfl⟩ | ⟨m, queue, hqueue, hresult, rfl⟩
        · cases hresult
          cases hended : p.ended isStream with
          | false =>
              rw [hended] at hserver
              exact ⟨_, sent, later, h.served hserver (fun e he => by cases he) rfl rfl⟩
          | true =>
              rw [hended] at hserver
              refine ⟨_, sent, later, h.served hserver (fun e he => ?_) rfl rfl⟩
              cases he
              exact ⟨rfl, hended⟩
        · cases hresult
          have hanswer : readAnswer (p.ended isStream) (.ok m) = .ok m :=
            if_neg fun hand => by cases hand.2
          rw [hanswer] at hserver
          refine ⟨_, sent, later, h.served hserver (fun e he => ?_) hqueue.symm rfl⟩
          cases he

/-! ## The two logs -/

/-- What the log of the reader says of the messages: their numbers, their ids, and their objects. -/
def readIn (log : List LogEvent) : List (Int32 × UInt32 × DataObject) :=
  (log.filterMap LogEvent.message?).map fun m => (m.1, m.2.1.id, m.2.2)

/-- What the log of the writer says of them. -/
def writtenIn (log : List ClientEvent) : List (Int32 × UInt32 × DataObject) :=
  log.map fun round => (round.i, round.i.toUInt32, .javaSymbol round.symbol)

/-- Test symbols have names of one line. -/
theorem Inv.oneLine (h : Inv isStream p t replies sent later) :
    ∀ m ∈ replies.filterMap ServerReply.message?, m.2.OneLine := by
  intro m hm
  have hmem : (m.1.id, m.2) ∈ written sent := by
    rw [← h.queue, List.map_append]
    exact List.mem_append_left _ (List.mem_map_of_mem hm)
  obtain ⟨round, -, heq⟩ := List.mem_map.mp hmem
  have ho : m.2 = .javaSymbol round.symbol := (Prod.mk.inj heq).2.symm
  rw [ho]
  change newline ∉ asBytes testName
  decide

/-- The rounds are numbered one by one. -/
theorem Logged.writtenIn_eq {client : RunClient} (h : Logged client rounds) :
    writtenIn rounds = (written rounds).mapIdx fun n m => (Int32.ofNat (n + 1), m) := by
  refine List.ext_getElem (by simp [writtenIn, written]) fun n hn hn' => ?_
  have hnumber := congrArg (·[n]?) h.number
  simp only [writtenIn, List.length_map] at hn
  simp only [List.getElem?_map, List.getElem?_eq_getElem hn, Option.map_some,
    List.getElem?_range hn] at hnumber
  simp only [writtenIn, written, List.getElem_map, List.getElem_mapIdx]
  rw [Option.some.inj hnumber]

/-- **The invariant says that the logs agree.** -/
theorem Inv.logs (h : Inv isStream p t replies sent later) :
    ∃ log, LogEvent.format.read p.server.cout.text = some log ∧
      ClientEvent.format.read p.client.cout.text = some (sent ++ later) ∧
      (∀ e ∈ log.filterMap LogEvent.error?, e = .connectionClosed ∧ p.ended isStream = true) ∧
      readIn log <+: writtenIn (sent ++ later) ∧
      (later = [] → (t.queue ≠ [] ↔ (readIn log).length < (writtenIn (sent ++ later)).length)) := by
  obtain ⟨log, hlog, htells⟩ := RunServer.log_of_run h.oneLine h.run
  refine ⟨log, hlog, ?_, ?_, ?_, ?_⟩
  · rw [h.logged.text, ClientEvent.read_format]
  · rw [htells.errors]
    exact h.errors
  · have hread : readIn log = ((replies.filterMap ServerReply.message?).map fun m =>
        (m.1.id, m.2)).mapIdx fun n m => (Int32.ofNat (n + 1), m) := by
      rw [readIn, htells.messages, RunServer.numbered]
      exact List.ext_getElem (by simp) fun n _ _ => by simp
    have hwritten : written (sent ++ later) = written sent ++ written later := List.map_append
    rw [hread, h.logged.writtenIn_eq, hwritten, ← h.queue, List.map_append, List.append_assoc,
      List.mapIdx_append]
    exact List.prefix_append _ _
  · rintro rfl
    have hlength := congrArg List.length h.queue
    have hread : (readIn log).length = (replies.filterMap ServerReply.message?).length := by
      rw [readIn, htells.messages, List.length_map, RunServer.numbered, List.length_mapIdx]
    rw [List.length_map, List.length_append, written, List.length_map] at hlength
    rw [hread, List.append_nil, writtenIn, List.length_map, ← hlength, ← List.length_pos_iff]
    omega

/-- What is asked of the handler: test symbols are written. -/
theorem ofWrites_of_request {P : DataObject → Prop}
    (hP : ∀ address length, P (.javaSymbol (testSymbol address length))) {i : HandlerCall}
    (hi : ((context isStream).request p choice).input? = some i) : Transport.OfWrites P i := by
  cases choice with
  | stop reader => cases hi
  | close reader => cases hi
  | gone => cases hi
  | client reply timestamp =>
      cases reply with
      | wrote ok =>
          simp only [context, request] at hi
          split at hi
          · split at hi <;> cases hi
            exact hP _ _
          · cases hi
      | _ => cases hi
  | server reply =>
      cases reply with
      | read result =>
          cases hi
          trivial
      | awaited ready =>
          cases ready <;> cases hi
          trivial
      | _ => cases hi

/-- The two processes with a handler of a class between them. -/
def around (c : HandlerClass) : Context HandlerCall HandlerReply NormalChoice NormalMode :=
  context c.isStream

/-- What a class does with an object as the abstract queue does. -/
def Suits (c : HandlerClass) (o : DataObject) : Prop :=
  c.isBus = true → ¬ o.Fits → bufferSize < o.bodySize

theorem suits_testSymbol (c : HandlerClass) (address : UInt64) (length : UInt32) :
    Suits c (.javaSymbol (testSymbol address length)) :=
  fun _ hfits => absurd (testSymbol_fits address length) hfits

/-- Every run with a handler is one with the abstract queue. -/
theorem exists_inv {c : HandlerClass} {R : c.transport.State → Channel → Prop}
    (hsim : Machine.Simulates c.transport.machine (Channel.machine c.capacity)
      (Transport.OfWrites (Suits c)) R) {s t : c.transport.State} (hR : R s .empty)
    {choices : List NormalChoice}
    (hrun : runAll ((around c).step c.transport.machine) (start, s) choices = some (p, t)) :
    ∃ u replies sent later, R t u ∧ Inv c.isStream p u replies sent later := by
  let Held : NormalMode × Channel → Prop := fun y =>
    ∃ replies sent later, Inv c.isStream y.1 y.2 replies sent later
  have hkeeps : ∀ y choice y', Held y → True →
      (around c).step (Channel.machine c.capacity) y choice = some y' → Held y' :=
    fun y choice y' ⟨_, _, _, h⟩ _ hstep => h.step hstep
  have hbegin : Held (start, .empty) := ⟨[], [], [], inv_start _⟩
  obtain ⟨⟨p', u⟩, ⟨rfl, hrel⟩, replies, sent, later, hinv⟩ := Context.invariant_of_simulates hsim hkeeps
    (fun y choice i _ hi => ofWrites_of_request (suits_testSymbol c) hi)
    ⟨rfl, hR⟩ hbegin (fun _ _ => trivial) hrun
  exact ⟨u, replies, sent, later, hrel, hinv⟩

/-- **The logs agree.** In every order of the calls of the two processes, over every class of handlers, the
outputs of both can be read as logs. The messages in the log of the reader, with their numbers, ids and
objects, are those in the log of the writer, up to some point, each with its number as its id. No `read`
is reported to have failed, except that a stream has been closed, and only when the writer has closed it;
no `write` is reported to have failed as long as the reader has not closed its handler. While both are
open, there is data for the reader exactly when it is behind. -/
theorem logs_agree {c : HandlerClass} {s t : c.transport.State}
    (hstart : c.transport.Start s.client s.server s.carrier) {choices : List NormalChoice}
    (hrun : runAll ((around c).step c.transport.machine) (start, s) choices = some (p, t)) :
    ∃ serverLog clientLog, LogEvent.format.read p.server.cout.text = some serverLog ∧
      ClientEvent.format.read p.client.cout.text = some clientLog ∧
      readIn serverLog <+: writtenIn clientLog ∧
      (∀ e ∈ serverLog.filterMap LogEvent.error?, e = .connectionClosed ∧ c.isStream = true ∧
        p.clientClosed = true) ∧
      (p.serverClosed = false → ∀ round ∈ clientLog, round.ok = true) ∧
      (p.clientClosed = false → p.serverClosed = false →
        (c.hasData t = true ↔ (readIn serverLog).length < (writtenIn clientLog).length)) := by
  obtain ⟨R, hR, hsim, hdata⟩ := c.exists_simulates
  obtain ⟨u, replies, sent, later, hrel, hinv⟩ := exists_inv hsim (hR s hstart) hrun
  obtain ⟨log, hserver, hclient, herrors, hprefix, hbehind⟩ := hinv.logs
  refine ⟨log, sent ++ later, hserver, hclient, hprefix, fun e he => ?_, fun hopen => ?_,
    fun _ hopen => (hdata t u hrel).trans (hbehind (hinv.later hopen))⟩
  · obtain ⟨hclosed, hstream⟩ := Bool.and_eq_true_iff.mp (herrors e he).2
    exact ⟨(herrors e he).1, hstream, hclosed⟩
  · rw [hinv.later hopen, List.append_nil]
    exact hinv.ok

/-- A message queue that both have opened. -/
def openedQueue : HandlerClass.messageQueue.transport.State :=
  ⟨⟨3, 0, fun _ => 0⟩, ⟨3, 0, fun _ => 0⟩, []⟩

theorem start_openedQueue : HandlerClass.messageQueue.transport.Start openedQueue.client
    openedQueue.server openedQueue.carrier := by
  refine ⟨⟨?_, rfl⟩, ?_, rfl⟩ <;> decide

/-- One round of each: a symbol is written and read. -/
def oneRound : List NormalChoice :=
  let symbol : DataObject := .javaSymbol (testSymbol 4294967298 3)
  [.client (.goesOn true) 0, .client (.generated 5 1 2 3) 0, .client (.wrote true) 7,
    .server (.goesOn true), .server (.awaited true),
    .server (.read (.ok (Channel.message 1 symbol 7)))]

/-- What the calls lead to. -/
def after (choices : List NormalChoice) : NormalMode × HandlerClass.messageQueue.transport.State :=
  (runAll ((around .messageQueue).step HandlerClass.messageQueue.transport.machine) (start, openedQueue)
    choices).getD (start, openedQueue)

/-- One round of each can be run. -/
theorem run_oneRound : runAll ((around .messageQueue).step HandlerClass.messageQueue.transport.machine)
    (start, openedQueue) oneRound = some (after oneRound) := rfl

/-- One message is in both logs. -/
theorem logs_agree_oneRound : ∃ serverLog clientLog,
    LogEvent.format.read (after oneRound).1.server.cout.text = some serverLog ∧
      ClientEvent.format.read (after oneRound).1.client.cout.text = some clientLog ∧
      readIn serverLog <+: writtenIn clientLog ∧
      (∀ e ∈ serverLog.filterMap LogEvent.error?, e = .connectionClosed ∧
        HandlerClass.messageQueue.isStream = true ∧ (after oneRound).1.clientClosed = true) ∧
      ((after oneRound).1.serverClosed = false → ∀ round ∈ clientLog, round.ok = true) ∧
      ((after oneRound).1.clientClosed = false → (after oneRound).1.serverClosed = false →
        (HandlerClass.messageQueue.hasData (after oneRound).2 = true ↔
          (readIn serverLog).length < (writtenIn clientLog).length)) :=
  logs_agree (c := .messageQueue) start_openedQueue run_oneRound

/-! ## Stopping -/

/-- A key has been pressed in both processes. -/
def Stopped (p : NormalMode) : Prop := p.clientStop = true ∧ p.serverStop = true

/-- The calls a writer that is stopped will make. -/
def clientWork : ClientStage → ℕ
  | .returned => 0
  | .checking => 1
  | .sleeping => 2
  | .writing _ _ _ => 3
  | .generating => 4

/-- The calls of a reader. -/
def serverWork : ServerStage → ℕ
  | .returned => 0
  | .checking => 1
  | .accepting => 2
  | .reading => 3
  | .awaiting => 4

theorem clientWork_le (stage : ClientStage) : clientWork stage ≤ 4 := by
  cases stage <;> simp [clientWork]

theorem serverWork_le (stage : ServerStage) : serverWork stage ≤ 4 := by
  cases stage <;> simp [serverWork]

/-- Those of both. -/
def work (p : NormalMode) : ℕ := clientWork p.client.stage + serverWork p.server.stage

/-- The reader has returned, and the writer, too, unless it is in `write`. -/
def Over (p : NormalMode) : Prop :=
  p.server.stage = .returned ∧
    (p.client.stage = .returned ∨ ∃ ts address length, p.client.stage = .writing ts address length)

/-- A call of a writer that is stopped. -/
theorem clientWork_lt {reply : ClientReply} {client : RunClient}
    (hstop : ∀ yes, reply = .goesOn yes → yes = false) (hstep : p.client.step reply = some client) :
    clientWork client.stage < clientWork p.client.stage := by
  cases reply with
  | goesOn yes =>
      obtain rfl := hstop yes rfl
      simp only [RunClient.step] at hstep
      split at hstep <;> cases hstep
      rename_i hstage
      rw [hstage]
      exact Nat.lt_succ_self 0
  | _ =>
      simp only [RunClient.step] at hstep
      split at hstep <;> cases hstep
      rename_i hstage
      rw [hstage]
      exact Nat.lt_succ_self _

/-- A call of a reader that is stopped. -/
theorem serverWork_lt {reply : ServerReply} {server : RunServer}
    (hstop : ∀ yes, reply = .goesOn yes → yes = false)
    (hstep : p.server.step isStream reply = some server) :
    serverWork server.stage < serverWork p.server.stage := by
  have hone : ∀ n : ℕ, 2 ≤ n → serverWork .checking < n := fun n hn => hn
  have htwo : ∀ n : ℕ, 3 ≤ n → serverWork .accepting < n := fun n hn => hn
  cases reply with
  | goesOn yes =>
      obtain rfl := hstop yes rfl
      simp only [RunServer.step] at hstep
      split at hstep <;> cases hstep
      rename_i hstage
      rw [hstage]
      exact Nat.lt_succ_self 0
  | awaited ready =>
      simp only [RunServer.step] at hstep
      split at hstep <;> cases hstep
      rename_i hstage
      rw [hstage]
      cases ready with
      | false => exact hone 4 (by decide)
      | true => exact Nat.lt_succ_self 3
  | read result =>
      simp only [RunServer.step] at hstep
      split at hstep
      · rename_i hstage
        rw [hstage]
        cases result with
        | error e =>
            cases hstep
            rw [RunServer.onError]
            split_ifs
            · exact hone 3 (by decide)
            · exact htwo 3 (by decide)
            · exact hone 3 (by decide)
        | ok m =>
            cases hstep
            exact hone 3 (by decide)
      · cases hstep
  | accepted ok =>
      simp only [RunServer.step] at hstep
      split at hstep <;> cases hstep
      rename_i hstage
      rw [hstage]
      exact hone 2 (by decide)

/-- A reader that is stopped goes on until it has returned. -/
theorem exists_server (hstop : p.serverStop = true)
    (hended : p.server.stage = .accepting → p.ended isStream = true)
    (hreturned : p.server.stage ≠ .returned) :
    ∃ reply x, (context isStream).step (Channel.machine capacity) (p, t) (.server reply) = some x := by
  have hnext (reply : ServerReply) (answer : Option HandlerReply)
      (hanswers : p.serverAnswers isStream reply answer = true)
      (hstep : ∃ server, p.server.step isStream reply = some server) :
      ∃ p', (context isStream).next p (.server reply) answer = some p' := by
    obtain ⟨server, hserver⟩ := hstep
    exact ⟨{ p with server }, by simp only [context, NormalMode.next, hanswers, hserver]; rfl⟩
  cases h : p.server.stage with
  | checking =>
      obtain ⟨p', hp'⟩ := hnext (.goesOn false) none (by rw [serverAnswers, hstop]; rfl)
        ⟨_, by rw [RunServer.step, if_pos h]; rfl⟩
      exact ⟨_, _, Context.step_of_none rfl hp'⟩
  | awaiting =>
      obtain ⟨p', hp'⟩ := hnext (.awaited false) none rfl
        ⟨_, by rw [RunServer.step, if_pos h]⟩
      exact ⟨_, _, Context.step_of_none rfl hp'⟩
  | reading =>
      obtain ⟨result, t', hread⟩ : ∃ result t', Channel.machine capacity t .read =
          some (.read (.ok result), t') := by
        cases hqueue : t.queue with
        | nil => exact ⟨_, _, by rw [Channel.machine, hqueue]⟩
        | cons m queue => exact ⟨_, _, by rw [Channel.machine, hqueue]⟩
      have hserver : ∃ server,
          p.server.step isStream (.read (readAnswer (p.ended isStream) result)) = some server := by
        simp only [RunServer.step, if_pos h]
        cases readAnswer (p.ended isStream) result with
        | error e => exact ⟨_, rfl⟩
        | ok m => exact ⟨_, rfl⟩
      obtain ⟨p', hp'⟩ := hnext (.read (readAnswer (p.ended isStream) result))
        (some (.read (.ok result))) (decide_eq_true rfl) hserver
      exact ⟨_, _, Context.step_of_call rfl hread hp'⟩
  | accepting =>
      obtain ⟨p', hp'⟩ := hnext (.accepted false) none (hended h)
        ⟨_, by rw [RunServer.step, if_pos h]⟩
      exact ⟨_, _, Context.step_of_none rfl hp'⟩
  | returned => exact absurd h hreturned

/-- So does a writer that is not in `write`. -/
theorem exists_client {σ : Type} {m : Machine HandlerCall HandlerReply σ} {s : σ}
    (hstop : p.clientStop = true) (hreturned : p.client.stage ≠ .returned)
    (hwriting : ∀ ts address length, p.client.stage ≠ .writing ts address length) :
    ∃ reply x, (context isStream).step m (p, s) (.client reply 0) = some x := by
  have hnext (reply : ClientReply) (hanswers : p.clientAnswers reply none = true)
      (hstep : ∃ client, p.client.step reply = some client) :
      ∃ p', (context isStream).next p (.client reply 0) none = some p' := by
    obtain ⟨client, hclient⟩ := hstep
    exact ⟨{ p with client }, by simp only [context, NormalMode.next, hanswers, hclient]; rfl⟩
  cases h : p.client.stage with
  | checking =>
      obtain ⟨p', hp'⟩ := hnext (.goesOn false) (by rw [clientAnswers, hstop]; rfl)
        ⟨_, by rw [RunClient.step, h]⟩
      exact ⟨_, _, Context.step_of_none rfl hp'⟩
  | generating =>
      obtain ⟨p', hp'⟩ := hnext (.generated 0 0 0 0) rfl ⟨_, by rw [RunClient.step, h]⟩
      exact ⟨_, _, Context.step_of_none rfl hp'⟩
  | writing ts address length => exact absurd h (hwriting ts address length)
  | sleeping =>
      obtain ⟨p', hp'⟩ := hnext .slept rfl ⟨_, by rw [RunClient.step, h]⟩
      exact ⟨_, _, Context.step_of_none rfl hp'⟩
  | returned => exact absurd h hreturned

/-- A `write` that the handler answers returns. -/
theorem exists_wrote {σ : Type} {m : Machine HandlerCall HandlerReply σ} {s s' : σ}
    {ts timestamp : Int64} {address : UInt64} {length : UInt32} {ok : Bool}
    (hstage : p.client.stage = .writing ts address length) (hopen : p.serverClosed = false)
    (hwrite : m s (.write (.javaSymbol (testSymbol address length)) timestamp) = some (.written ok, s')) :
    ∃ x, (context isStream).step m (p, s) (.client (.wrote ok) timestamp) = some x := by
  obtain ⟨client, hclient⟩ : ∃ client, p.client.step (.wrote ok) = some client :=
    ⟨_, by rw [RunClient.step, hstage]⟩
  have hrequest : (context isStream).request p (.client (.wrote ok) timestamp) =
      .call (.write (.javaSymbol (testSymbol address length)) timestamp) := by
    simp only [context, request, hstage, hopen, Bool.false_eq_true, if_false]
  have hanswers : p.clientAnswers (.wrote ok) (some (.written ok)) = true :=
    decide_eq_true rfl
  refine ⟨({ p with client }, s'), Context.step_of_call hrequest hwrite ?_⟩
  simp only [context, NormalMode.next, hanswers, hclient]
  rfl

/-- So does one to a reader that has closed its handler, unless it never does. -/
theorem exists_wrote_of_closed {σ : Type} {m : Machine HandlerCall HandlerReply σ} {s : σ} {ts : Int64}
    {address : UInt64} {length : UInt32} (hstage : p.client.stage = .writing ts address length)
    (hclosed : p.serverClosed = true) (hgone : p.clientGone = false) :
    ∃ x, (context isStream).step m (p, s) (.client (.wrote true) 0) = some x := by
  obtain ⟨client, hclient⟩ : ∃ client, p.client.step (.wrote true) = some client :=
    ⟨_, by rw [RunClient.step, hstage]⟩
  have hrequest : (context isStream).request p (.client (.wrote true) 0) = .none := by
    simp only [context, request, hstage, hclosed, if_true]
  have hanswers : p.clientAnswers (.wrote true) none = true := by
    rw [clientAnswers, hclosed, hgone]
    rfl
  refine ⟨({ p with client }, s), Context.step_of_none hrequest ?_⟩
  simp only [context, NormalMode.next, hanswers, hclient]
  rfl

/-- A step of processes that are stopped. -/
theorem Stopped.step (h : p.Stopped) (hstep : (context isStream).step m (p, s) choice = some (p', s')) :
    p'.Stopped ∧ (choice.outside = false → work p' < work p) ∧ work p' ≤ work p := by
  have hlt (hless : work p' < work p) : (choice.outside = false → work p' < work p) ∧ work p' ≤ work p :=
    ⟨fun _ => hless, hless.le⟩
  have houtside (hchoice : choice.outside = true) :
      p'.Stopped ∧ (choice.outside = false → work p' < work p) ∧ work p' ≤ work p := by
    obtain ⟨-, hflags⟩ := step_outside hchoice hstep
    refine ⟨⟨hflags.clientStop h.1, hflags.serverStop h.2⟩, fun hnot => ?_, ?_⟩
    · rw [hchoice] at hnot
      cases hnot
    · rw [work, work, hflags.client, hflags.server]
  cases choice with
  | stop reader => exact houtside rfl
  | close reader => exact houtside rfl
  | gone => exact houtside rfl
  | client reply timestamp =>
      obtain ⟨-, hgoes, client, hclient, rfl, -⟩ |
        ⟨ok, ts, address, length, client, rfl, -, -, hclient, rfl⟩ := step_client hstep
      · refine ⟨h, hlt (Nat.add_lt_add_right (clientWork_lt ?_ hclient) _)⟩
        intro yes hyes
        have hgo := hgoes yes hyes
        rwa [h.1] at hgo
      · exact ⟨h, hlt (Nat.add_lt_add_right (clientWork_lt (by rintro yes ⟨⟩) hclient) _)⟩
  | server reply =>
      obtain ⟨-, hgoes, server, hserver, rfl, -⟩ | ⟨result, server, rfl, -, hserver, rfl⟩ :=
        step_server hstep
      · refine ⟨h, hlt (Nat.add_lt_add_left (serverWork_lt ?_ hserver) _)⟩
        intro yes hyes
        have hgo := hgoes yes hyes
        rwa [h.2] at hgo
      · exact ⟨h, hlt (Nat.add_lt_add_left (serverWork_lt (by rintro yes ⟨⟩) hserver) _)⟩

/-- **Stopping**: the processes settle. -/
theorem settles (isStream : Bool) (capacity : Capacity) :
    Settling ((context isStream).step (Channel.machine capacity)) (fun _ _ => True)
      (fun y => y.1.Stopped ∧ ∃ replies sent later, Inv isStream y.1 y.2 replies sent later)
      (fun y => y.1.Over) NormalChoice.outside fun y => work y.1 where
  keeps h _ hstep := by
    obtain ⟨hstopped, replies, sent, later, hinv⟩ := h
    exact ⟨(hstopped.step hstep).1, hinv.step hstep⟩
  falls h _ houtside hstep := (h.1.step hstep).2.1 houtside
  stays h _ _ hstep := (h.1.step hstep).2.2
  moves {y} h hover := by
    obtain ⟨⟨hclient, hserver⟩, replies, sent, later, hinv⟩ := h
    by_cases hreader : y.1.server.stage = .returned
    · have hreturned : y.1.client.stage ≠ .returned := fun h => hover ⟨hreader, .inl h⟩
      have hwriting : ∀ ts address length, y.1.client.stage ≠ .writing ts address length :=
        fun ts address length h => hover ⟨hreader, .inr ⟨ts, address, length, h⟩⟩
      obtain ⟨reply, x, hstep⟩ := exists_client hclient hreturned hwriting
      exact ⟨_, x, rfl, trivial, hstep⟩
    · obtain ⟨reply, x, hstep⟩ := exists_server hserver hinv.stage hreader
      exact ⟨_, x, rfl, trivial, hstep⟩

/-- The writer is in a `write` that does not return: to a reader that has closed its handler, or for want
of room. -/
def Stays (c : HandlerClass) (p : NormalMode) (t : c.transport.State) : Prop :=
  ∃ ts address length, p.client.stage = .writing ts address length ∧
    (p.serverClosed = true ∧ p.clientGone = true ∨
      c.capacity ≠ .unlimited ∧ ∀ timestamp,
        c.transport.machine t (.write (.javaSymbol (testSymbol address length)) timestamp) = none)

/-- **The threads return.** Once a key has been pressed in both processes, whatever has happened before and
whatever happens then, the two threads return from at most eight calls more. When none of their calls can
return any more, the reader has left its loop, and so has the writer, unless it is in a `write` that does
not return: the reader has closed its handler, or there is no room in a class with a capacity. -/
theorem shuts_down {c : HandlerClass} {s t t' : c.transport.State}
    (hstart : c.transport.Start s.client s.server s.carrier) {choices next : List NormalChoice}
    (hrun : runAll ((around c).step c.transport.machine) (start, s) choices = some (p, t))
    (hstopped : p.Stopped)
    (hnext : runAll ((around c).step c.transport.machine) (p, t) next = some (p', t')) :
    next.countP (fun choice => !choice.outside) ≤ 8 ∧
      ((∀ choice, choice.outside = false → (around c).step c.transport.machine (p', t') choice = none) →
        p'.server.stage = .returned ∧ (p'.client.stage = .returned ∨ Stays c p' t')) := by
  obtain ⟨R, hR, hsim, -⟩ := c.exists_simulates
  obtain ⟨u, replies, sent, later, hrel, hinv⟩ := exists_inv hsim (hR s hstart) hrun
  let Known : NormalMode × c.transport.State → Prop := fun x => ∃ y, Context.Rel R x y ∧
    (y.1.Stopped ∧ ∃ replies sent later, Inv c.isStream y.1 y.2 replies sent later)
  have hsettles : Settling ((around c).step c.transport.machine) (fun _ _ => True) Known
      (fun x => x.1.Over) NormalChoice.outside fun x => work x.1 :=
    Context.settling_of_simulates hsim (P := fun _ _ => True) (settles c.isStream c.capacity)
      fun y choice i _ hi => ofWrites_of_request (suits_testSymbol c) hi
  have hbefore : Known (p, t) := ⟨(p, u), ⟨rfl, hrel⟩, hstopped, replies, sent, later, hinv⟩
  have halong : Along ((around c).step c.transport.machine) (fun _ _ => True) (p, t) next :=
    along_of_forall (fun _ _ => trivial) (p, t)
  refine ⟨?_, fun hstuck => ?_⟩
  · have hcount := hsettles.countP_le hbefore halong hnext
    calc next.countP (fun choice => !choice.outside)
      _ ≤ next.countP (fun choice => !choice.outside) + work p' := Nat.le_add_right _ _
      _ ≤ work p := hcount
      _ ≤ 4 + 4 := Nat.add_le_add (clientWork_le _) (serverWork_le _)
  · have hafter := runAll_invariant (fun x choice x' h hP hstep => hsettles.keeps h hP hstep) hbefore
      halong hnext
    have hover := hsettles.done_of_stuck hafter fun choice x houtside _ hstep => by
      rw [hstuck choice houtside] at hstep
      cases hstep
    refine ⟨hover.1, hover.2.imp_right ?_⟩
    rintro ⟨ts, address, length, hstage⟩
    refine ⟨ts, address, length, hstage, ?_⟩
    cases hclosed : p'.serverClosed with
    | true =>
        -- a `write` that does return could do so
        refine .inl ⟨rfl, ?_⟩
        by_contra hgone
        have hstep : ∃ x, (around c).step c.transport.machine (p', t') (.client (.wrote true) 0) =
            some x := exists_wrote_of_closed hstage hclosed (Bool.eq_false_of_not_eq_true hgone)
        obtain ⟨x, hx⟩ := hstep
        rw [hstuck _ rfl] at hx
        cases hx
    | false =>
        have hblocked (timestamp : Int64) : c.transport.machine t'
            (.write (.javaSymbol (testSymbol address length)) timestamp) = none := by
          by_contra hanswer
          obtain ⟨⟨reply, t''⟩, hwrite⟩ := Option.ne_none_iff_exists'.mp hanswer
          obtain ⟨⟨ok, client, carrier⟩, -, hreply⟩ := Option.map_eq_some_iff.mp hwrite
          cases hreply
          have hstep : ∃ x, (around c).step c.transport.machine (p', t')
              (.client (.wrote ok) timestamp) = some x := exists_wrote hstage hclosed hwrite
          obtain ⟨x, hx⟩ := hstep
          rw [hstuck _ rfl] at hx
          cases hx
        refine .inr ⟨fun hcapacity => ?_, hblocked⟩
        -- the abstract queue would answer
        obtain ⟨y, ⟨-, hrel'⟩, -⟩ := hafter
        obtain ⟨⟨reply, u'⟩, hwrite⟩ : ∃ q, Channel.machine c.capacity y.2
            (.write (.javaSymbol (testSymbol address length)) 0) = some q := by
          rw [hcapacity]
          exact Channel.exists_machine _ _
        have hsuits :
            Transport.OfWrites (Suits c) (.write (.javaSymbol (testSymbol address length)) 0) :=
          suits_testSymbol c address length
        obtain ⟨t'', hanswer, -⟩ := hsim.exists_answer hrel' hsuits hwrite
        rw [hblocked 0] at hanswer
        cases hanswer

/-- A round of each, and then a key is pressed for both. -/
def bothStop : List NormalChoice := oneRound ++ [.stop true, .stop false]

/-- Both look at `stop`, and main closes the handlers. -/
def goHome : List NormalChoice :=
  [.server (.goesOn false), .close true, .client .slept 0, .client (.goesOn false) 0, .close false]

/-- They can be stopped. -/
theorem run_bothStop : runAll ((around .messageQueue).step HandlerClass.messageQueue.transport.machine)
    (start, openedQueue) bothStop = some (after bothStop) := rfl

/-- They can return. -/
theorem run_goHome : runAll ((around .messageQueue).step HandlerClass.messageQueue.transport.machine)
    (after bothStop) goHome = some (after (bothStop ++ goHome)) := rfl

/-- After the round, both return. -/
theorem shuts_down_oneRound :
    goHome.countP (fun choice => !choice.outside) ≤ 8 ∧
      ((∀ choice, choice.outside = false →
        (around .messageQueue).step HandlerClass.messageQueue.transport.machine
          (after (bothStop ++ goHome)) choice = none) →
        (after (bothStop ++ goHome)).1.server.stage = .returned ∧
          ((after (bothStop ++ goHome)).1.client.stage = .returned ∨
            Stays .messageQueue (after (bothStop ++ goHome)).1 (after (bothStop ++ goHome)).2)) :=
  shuts_down (c := .messageQueue) start_openedQueue run_bothStop ⟨rfl, rfl⟩ run_goHome

end NormalMode

end IpcPerformance
