import IpcPerformance.Handler.Transport
import IpcPerformance.Library.Context
import IpcPerformance.Log.Objects

/-! # The log of `run_server`

The loop of a reader in the normal mode, from `src/main.cpp`. Between any two messages it looks whether it
is to stop; it waits for data if the last `read` has not brought any; and when the connection of a
`StreamSocket` has been closed it accepts the next client. What has happened is printed, line by line.

* `RunServer.step` — the loop, with the answers of its calls.
* `LogEvent.format` — the lines, as a format.
* `RunServer.log_of_run` — so the log of every run can be read again, and tells all that has been read. -/

namespace IpcPerformance

/-! ## The lines -/

/-- `static_cast<int>` of an error. -/
def CommunicationError.code : CommunicationError → ℤ
  | connectionClosed => 0
  | noDataAvailable => 1
  | readError => 2
  | invalidHeader => 3
  | invalidData => 4
  | unknownData => 5

/-- The error with a code. -/
def CommunicationError.ofCode (code : ℤ) : CommunicationError :=
  if code = 0 then connectionClosed
  else if code = 1 then noDataAvailable
  else if code = 2 then readError
  else if code = 3 then invalidHeader
  else if code = 4 then invalidData
  else unknownData

theorem CommunicationError.ofCode_code (e : CommunicationError) : ofCode e.code = e := by
  cases e <;> rfl

/-- What a line of the log says, or two lines for a message. -/
inductive LogEvent
  /-- The loop waits for data. -/
  | awaiting
  /-- A `read` has failed. -/
  | failed (e : CommunicationError)
  /-- Another client has been accepted. -/
  | reconnected
  /-- The `i`-th message. -/
  | message (i : Int32) (header : DataHeader) (o : DataObject)
  deriving DecidableEq

namespace LogEvent

/-- `Await new data...` -/
def awaitText : List Char :=
  ['A', 'w', 'a', 'i', 't', ' ', 'n', 'e', 'w', ' ', 'd', 'a', 't', 'a', '.', '.', '.']

/-- `Error while reading data (Error: ` -/
def errorText : List Char :=
  ['E', 'r', 'r', 'o', 'r', ' ', 'w', 'h', 'i', 'l', 'e', ' ', 'r', 'e', 'a', 'd', 'i', 'n', 'g', ' ',
    'd', 'a', 't', 'a', ' ', '(', 'E', 'r', 'r', 'o', 'r', ':', ' ']

/-- `Client reconnected` -/
def reconnectText : List Char :=
  ['C', 'l', 'i', 'e', 'n', 't', ' ', 'r', 'e', 'c', 'o', 'n', 'n', 'e', 'c', 't', 'e', 'd']

/-- `Header` -/
def headerText : List Char := ['H', 'e', 'a', 'd', 'e', 'r']

/-- The lines. -/
def text : LogEvent → List Char
  | awaiting => awaitText ++ ['\n']
  | failed e => errorText ++ Numeral.decimal e.code ++ [')', '\n']
  | reconnected => reconnectText ++ ['\n']
  | message i header o =>
      headerText ++ header.text ++ [' ', '-', ' '] ++ Numeral.decimal i.toInt ++ ['\n'] ++ o.line

/-- It can be read again if the name of the symbol, if there is one, is one line. -/
def OneLine : LogEvent → Prop
  | message _ _ o => o.OneLine
  | _ => True

/-- The message of an event, with its number. -/
def message? : LogEvent → Option (Int32 × DataHeader × DataObject)
  | message i header o => some (i, header, o)
  | _ => none

/-- The error of an event. -/
def error? : LogEvent → Option CommunicationError
  | failed e => some e
  | _ => none

/-! ### Reading them -/

/-- The alternatives. -/
def toSum : LogEvent → ((DataHeader × Int32) × DataObject) ⊕ CommunicationError ⊕ Unit ⊕ Unit
  | message i header o => .inl ((header, i), o)
  | failed e => .inr (.inl e)
  | awaiting => .inr (.inr (.inl ()))
  | reconnected => .inr (.inr (.inr ()))

/-- The event of an alternative. -/
def ofSum : ((DataHeader × Int32) × DataObject) ⊕ CommunicationError ⊕ Unit ⊕ Unit → LogEvent
  | .inl ((header, i), o) => message i header o
  | .inr (.inl e) => failed e
  | .inr (.inr (.inl ())) => awaiting
  | .inr (.inr (.inr ())) => reconnected

open Format

/-- Signed numbers of 32 bits, up to a delimiter. -/
def int32 (d : Char) : Format Char Int32 :=
  (number d).via Int32.toInt Int32.ofInt Int32.ofInt_toInt

/-- The lines of a message. -/
def messageFormat : Format Char ((DataHeader × Int32) × DataObject) :=
  (DataHeader.textFormat.behind headerText).seq ((int32 '\n').behind [' ', '-', ' ']) |>.seq
    DataObject.lineFormat

/-- The line of an error. -/
def errorFormat : Format Char CommunicationError :=
  (((number ')').seq (literal ['\n'])).via (fun e => (CommunicationError.code e, ()))
    (fun p => .ofCode p.1) CommunicationError.ofCode_code).behind errorText

/-- **The format of the log**: the first character tells what has happened. -/
def format : Format Char LogEvent :=
  (alt (· = 'H') messageFormat
    (alt (· = 'E') errorFormat
      (alt (· = 'A') (literal (awaitText ++ ['\n'])) (literal (reconnectText ++ ['\n']))
        (fun _ _ => rfl) fun _ _ => rfl)
      (fun _ _ => rfl) (by rintro (- | -) - <;> rfl))
    (fun _ _ => rfl) (by rintro (_ | - | -) - <;> rfl)).map ofSum toSum
      (by rintro (_ | _ | - | -) - <;> rfl) (by rintro (_ | _ | _ | _) <;> rfl)

theorem dom_format {event : LogEvent} (h : event.OneLine) : format.dom event := by
  cases event with
  | awaiting => trivial
  | failed e =>
      exact ⟨trivial, Numeral.not_mem_decimal (by decide) (by decide) _, trivial⟩
  | reconnected => trivial
  | message i header o =>
      exact ⟨⟨⟨trivial, header.dom_textFormat⟩, trivial,
        Numeral.not_mem_decimal (by decide) (by decide) _⟩, DataObject.dom_lineFormat h⟩

theorem encode_format (event : LogEvent) : format.encode event = event.text := by
  cases event with
  | awaiting => rfl
  | failed e =>
      change errorText ++ (Numeral.decimal e.code ++ [')'] ++ ['\n']) = _
      simp [text]
  | reconnected => rfl
  | message i header o =>
      change headerText ++ DataHeader.textFormat.encode header ++
        ([' ', '-', ' '] ++ (Numeral.decimal i.toInt ++ ['\n'])) ++ DataObject.lineFormat.encode o = _
      rw [DataHeader.encode_textFormat, DataObject.encode_lineFormat]
      simp [text]

theorem text_ne_nil (event : LogEvent) : event.text ≠ [] := by
  cases event <;> exact List.cons_ne_nil _ _

/-- **A log is read as what it was written from.** -/
theorem read_format {log : List LogEvent} (h : ∀ event ∈ log, event.OneLine) :
    format.read (log.flatMap text) = some log := by
  have hencode : log.flatMap text = log.flatMap format.encode :=
    List.flatMap_congr fun event _ => (encode_format event).symm
  rw [hencode]
  refine format.read_flatMap (fun event _ => ?_) fun event hevent => dom_format (h event hevent)
  rw [encode_format]
  exact text_ne_nil event

end LogEvent

/-! ## The loop -/

/-- Where the loop is. -/
inductive ServerStage
  /-- At its condition. -/
  | checking
  /-- In `await_data`. -/
  | awaiting
  /-- In `read`. -/
  | reading
  /-- In `accept`. -/
  | accepting
  /-- The loop has been left. -/
  | returned
  deriving DecidableEq

/-- What the calls of the loop return. -/
inductive ServerReply
  /-- `!stop && handler->is_open()` -/
  | goesOn (yes : Bool)
  /-- `await_data` -/
  | awaited (ready : Bool)
  /-- `read` -/
  | read (result : ReadResult)
  /-- `accept` -/
  | accepted (ok : Bool)
  deriving DecidableEq

namespace ServerReply

/-- The message that has been read. -/
def message? : ServerReply → Option (DataHeader × DataObject)
  | read (.ok m) => some m
  | _ => none

/-- The error, unless it is that there is no data available. -/
def error? : ServerReply → Option CommunicationError
  | read (.error e) => if e = .noDataAvailable then none else some e
  | _ => none

/-- A wait is over. -/
def waited : ServerReply → Bool
  | awaited _ => true
  | _ => false

end ServerReply

/-- `run_server`: its variables, its output, and where it is. -/
structure RunServer where
  /-- Where it is. -/
  stage : ServerStage
  /-- The number of the next message. -/
  i : Int32
  /-- Whether the last `read` has brought a message. -/
  moreData : Bool
  /-- `std::cout` -/
  cout : OutputStream

namespace RunServer

open LogEvent

/-- Before the loop. -/
def start : RunServer := ⟨.checking, 1, false, .create⟩

/-- The visitor for errors; the handler is a `StreamSocket` or not. -/
def onError (isStream : Bool) (s : RunServer) (e : CommunicationError) : RunServer :=
  -- "no data available" is not a real error
  if e = .noDataAvailable then { s with stage := .checking }
  else
    let cout := ((s.cout.put errorText).putInt 32 e.code).put [')'] |>.endLine
    if e = .connectionClosed ∧ isStream = true then { s with stage := .accepting, cout }
    else { s with stage := .checking, cout }

/-- The visitor for messages. -/
def onSuccess (s : RunServer) (header : DataHeader) (o : DataObject) : RunServer :=
  let cout := ((header.print (s.cout.put headerText)).put [' ', '-', ' ']).putInt 32 s.i.toInt
    |>.endLine
  { s with stage := .checking, i := s.i + 1, cout := o.print cout }

/-- One call of the loop returns. -/
def step (isStream : Bool) (s : RunServer) : ServerReply → Option RunServer
  | .goesOn yes =>
      if s.stage = .checking then
        if yes then
          if s.moreData then some { s with stage := .reading }
          else some { s with stage := .awaiting, cout := (s.cout.put awaitText).endLine }
        else some { s with stage := .returned }
      else none
  | .awaited ready =>
      if s.stage = .awaiting then some { s with stage := if ready then .reading else .checking }
      else none
  | .read result =>
      if s.stage = .reading then
        match result with
        | .error e => some (onError isStream { s with moreData := false } e)
        | .ok (header, o) => some (onSuccess { s with moreData := true } header o)
      else none
  | .accepted ok =>
      if s.stage = .accepting then
        some { s with
          stage := .checking
          cout := if ok then (s.cout.put reconnectText).endLine else s.cout }
      else none

/-! ### What is logged -/

/-- What the log says of an answer. -/
def logged (s : RunServer) : ServerReply → List LogEvent
  | .goesOn yes => if yes && !s.moreData then [.awaiting] else []
  | .awaited _ => []
  | .read (.error e) => if e = .noDataAvailable then [] else [.failed e]
  | .read (.ok (header, o)) => [.message s.i header o]
  | .accepted ok => if ok then [.reconnected] else []

variable {isStream : Bool} {s t : RunServer} {reply : ServerReply}

/-- What is printed of an error. -/
theorem onError_prints (h : s.cout.Plain) (e : CommunicationError) :
    s.cout.Prints (s.onError isStream e).cout ((s.logged (.read (.error e))).flatMap text) := by
  rw [onError, logged]
  by_cases he : e = .noDataAvailable
  · rw [if_pos he, if_pos he]
    exact .refl s.cout
  · rw [if_neg he, if_neg he]
    have hline := (((OutputStream.Prints.of_put h errorText).putInt h 32 e.code).put h [')']).endLine
    rw [List.append_assoc] at hline
    rw [List.flatMap_singleton]
    split_ifs
    · exact hline
    · exact hline

/-- What is printed of a message. -/
theorem onSuccess_prints (h : s.cout.Plain) (header : DataHeader) (o : DataObject) :
    s.cout.Prints (s.onSuccess header o).cout
      ((s.logged (.read (.ok (header, o)))).flatMap text) := by
  have hname := OutputStream.Prints.of_put h headerText
  have hline := (((hname.trans (header.prints (hname.plain h))).put h [' ', '-', ' ']).putInt h 32
    s.i.toInt).endLine
  rw [logged, List.flatMap_singleton]
  exact hline.trans (o.prints (hline.plain h))

/-- **What is printed** is what is logged. -/
theorem step_prints (h : s.cout.Plain) (hstep : s.step isStream reply = some t) :
    s.cout.Prints t.cout ((s.logged reply).flatMap text) := by
  have hline (piece : List Char) := (OutputStream.Prints.of_put h piece).endLine
  cases reply with
  | goesOn yes =>
      simp only [step] at hstep
      split_ifs at hstep with hstage hyes hmore <;> cases hstep
      · simp only [logged, hyes, hmore]
        exact .refl s.cout
      · simp only [logged, hyes, hmore]
        exact hline awaitText
      · simp only [logged, hyes]
        exact .refl s.cout
  | awaited ready =>
      simp only [step] at hstep
      split at hstep
      · cases hstep
        exact .refl s.cout
      · cases hstep
  | read result =>
      simp only [step] at hstep
      split_ifs at hstep
      cases result with
      | error e =>
          cases hstep
          exact onError_prints (s := { s with moreData := false }) h e
      | ok m =>
          cases hstep
          exact onSuccess_prints (s := { s with moreData := true }) h m.1 m.2
  | accepted ok =>
      simp only [step] at hstep
      split at hstep
      · cases hstep
        cases ok with
        | false => exact .refl s.cout
        | true => exact hline reconnectText
      · cases hstep

/-- Without an error there is nothing to accept. -/
theorem stage_ne_accepting (herror : reply.error? = none) (hstep : s.step isStream reply = some t) :
    t.stage ≠ .accepting := by
  cases reply with
  | goesOn yes =>
      simp only [step] at hstep
      split_ifs at hstep <;> cases hstep <;> exact ServerStage.noConfusion
  | awaited ready =>
      simp only [step] at hstep
      split at hstep
      · cases hstep
        cases ready <;> exact ServerStage.noConfusion
      · cases hstep
  | read result =>
      simp only [step] at hstep
      split at hstep
      · cases result with
        | error e =>
            by_cases he : e = .noDataAvailable
            · cases hstep
              rw [onError, if_pos he]
              exact ServerStage.noConfusion
            · have hsome : (ServerReply.read (.error e)).error? = some e := if_neg he
              rw [hsome] at herror
              cases herror
        | ok m =>
            cases hstep
            exact ServerStage.noConfusion
      · cases hstep
  | accepted ok =>
      simp only [step] at hstep
      split at hstep
      · cases hstep
        exact ServerStage.noConfusion
      · cases hstep

/-! ### Whole runs -/

/-- Messages with their numbers, which start with one. -/
def numbered (ms : List (DataHeader × DataObject)) : List (Int32 × DataHeader × DataObject) :=
  ms.mapIdx fun n m => (Int32.ofNat (n + 1), m)

theorem numbered_concat (ms : List (DataHeader × DataObject)) (m : DataHeader × DataObject) :
    numbered (ms ++ [m]) = numbered ms ++ [(Int32.ofNat (ms.length + 1), m)] :=
  List.mapIdx_concat

/-- Whether the loop waits at this stage. -/
def waitsAt (stage : ServerStage) : ℕ := if stage = .awaiting then 1 else 0

/-- **What the log tells** of a run with these answers that is at this stage. -/
structure Tells (log : List LogEvent) (replies : List ServerReply) (stage : ServerStage) : Prop where
  /-- The messages, numbered. -/
  messages : log.filterMap LogEvent.message? = numbered (replies.filterMap ServerReply.message?)
  /-- The errors. -/
  errors : log.filterMap LogEvent.error? = replies.filterMap ServerReply.error?
  /-- The clients that have been accepted later. -/
  reconnected : log.count .reconnected = replies.count (.accepted true)
  /-- The waits. -/
  awaiting : log.count .awaiting = replies.countP ServerReply.waited + waitsAt stage

/-- The log goes on with what tells of the next answer. -/
theorem Tells.append {log events : List LogEvent} {replies : List ServerReply} {stage stage' : ServerStage}
    (h : Tells log replies stage)
    (hmessages : events.filterMap LogEvent.message? = (reply.message?.map fun m =>
      (Int32.ofNat ((replies.filterMap ServerReply.message?).length + 1), m)).toList)
    (herrors : events.filterMap LogEvent.error? = reply.error?.toList)
    (hreconnected : events.count .reconnected = [reply].count (.accepted true))
    (hawaiting : waitsAt stage + events.count .awaiting =
      [reply].countP ServerReply.waited + waitsAt stage') :
    Tells (log ++ events) (replies ++ [reply]) stage' := by
  have hlast {β : Type} (f : ServerReply → Option β) : [reply].filterMap f = (f reply).toList := by
    cases hreply : f reply <;> simp [hreply]
  constructor
  · rw [List.filterMap_append, List.filterMap_append, h.messages, hmessages, hlast]
    cases reply.message? with
    | none => simp
    | some m => exact (numbered_concat _ m).symm
  · rw [List.filterMap_append, List.filterMap_append, h.errors, herrors, hlast]
  · rw [List.count_append, List.count_append, h.reconnected, hreconnected]
  · rw [List.count_append, List.countP_append, h.awaiting, Nat.add_assoc, hawaiting, Nat.add_assoc]

/-- The number of the next message. -/
def NumberedNext (s : RunServer) (replies : List ServerReply) : Prop :=
  s.i = Int32.ofNat ((replies.filterMap ServerReply.message?).length + 1)

/-- An answer without a message. -/
theorem NumberedNext.step {replies : List ServerReply} (h : s.NumberedNext replies)
    (hnone : reply.message? = none) (hi : t.i = s.i) : t.NumberedNext (replies ++ [reply]) := by
  rw [NumberedNext, List.filterMap_append, hi, h]
  simp [hnone]

/-- **The log goes on** to tell what happens. -/
theorem Tells.step {log : List LogEvent} {replies : List ServerReply}
    (h : Tells log replies s.stage) (hi : s.NumberedNext replies)
    (hstep : s.step isStream reply = some t) :
    Tells (log ++ s.logged reply) (replies ++ [reply]) t.stage ∧ t.NumberedNext (replies ++ [reply]) := by
  cases reply with
  | goesOn yes =>
      simp only [RunServer.step] at hstep
      split_ifs at hstep with hstage hyes hmore <;> cases hstep <;> rw [hstage] at h
      · simp only [logged, hyes, hmore]
        exact ⟨h.append rfl rfl rfl rfl, hi.step rfl rfl⟩
      · simp only [logged, hyes, hmore]
        exact ⟨h.append rfl rfl rfl rfl, hi.step rfl rfl⟩
      · simp only [logged, hyes]
        exact ⟨h.append rfl rfl rfl rfl, hi.step rfl rfl⟩
  | awaited ready =>
      simp only [RunServer.step] at hstep
      split at hstep
      · rename_i hstage
        cases hstep
        rw [hstage] at h
        refine ⟨h.append rfl rfl rfl ?_, hi.step rfl rfl⟩
        cases ready <;> rfl
      · cases hstep
  | read result =>
      simp only [RunServer.step] at hstep
      split at hstep
      · rename_i hstage
        rw [hstage] at h
        cases result with
        | error e =>
            cases hstep
            by_cases he : e = .noDataAvailable
            · subst he
              exact ⟨h.append rfl rfl rfl rfl, hi.step rfl rfl⟩
            · simp only [logged, onError, if_neg he]
              have herror : (ServerReply.read (.error e)).error? = some e := if_neg he
              split_ifs
              · exact ⟨h.append rfl (by rw [herror]; rfl) rfl rfl, hi.step rfl rfl⟩
              · exact ⟨h.append rfl (by rw [herror]; rfl) rfl rfl, hi.step rfl rfl⟩
        | ok m =>
            cases hstep
            refine ⟨h.append ?_ rfl rfl rfl, ?_⟩
            · rw [← hi]
              rfl
            · have hlength : ((replies ++ [ServerReply.read (.ok m)]).filterMap ServerReply.message?).length =
                  (replies.filterMap ServerReply.message?).length + 1 := by
                rw [List.filterMap_append, List.length_append]
                rfl
              rw [NumberedNext, hlength, Int32.ofNat_add, ← hi]
              rfl
      · cases hstep
  | accepted ok =>
      simp only [RunServer.step] at hstep
      split at hstep
      · rename_i hstage
        cases hstep
        rw [hstage] at h
        cases ok with
        | false => exact ⟨h.append rfl rfl rfl rfl, hi.step rfl rfl⟩
        | true => exact ⟨h.append rfl rfl rfl rfl, hi.step rfl rfl⟩
      · cases hstep

/-- The names of the symbols that have been read are single lines. -/
theorem oneLine_of_message {log : List LogEvent} {replies : List ServerReply} {stage : ServerStage}
    (h : Tells log replies stage)
    (hlines : ∀ m ∈ replies.filterMap ServerReply.message?, m.2.OneLine) :
    ∀ event ∈ log, event.OneLine := by
  intro event hevent
  cases event with
  | message i header o =>
      have hmem : (i, header, o) ∈ log.filterMap LogEvent.message? :=
        List.mem_filterMap.mpr ⟨_, hevent, rfl⟩
      rw [h.messages, numbered, List.mem_mapIdx] at hmem
      obtain ⟨n, hn, heq⟩ := hmem
      have hget : (replies.filterMap ServerReply.message?)[n] = (header, o) := (Prod.mk.inj heq).2
      have hline := hlines _ (List.getElem_mem hn)
      rwa [hget] at hline
  | _ => trivial

/-- **The log can be read again**: after any answers, as long as the names of the symbols are single lines,
what the loop has printed is read as the log that tells all messages, numbered from one, all errors, how
often another client has been accepted and how often the loop has waited. -/
theorem log_of_run {replies : List ServerReply}
    (hlines : ∀ m ∈ replies.filterMap ServerReply.message?, m.2.OneLine)
    (hrun : runAll (step isStream) start replies = some t) :
    ∃ log, LogEvent.format.read t.cout.text = some log ∧ Tells log replies t.stage := by
  have hinv := runAll_history (s := start) (fun replies t => t.cout.Plain ∧ t.NumberedNext replies ∧
      ∃ log, t.cout.text = log.flatMap text ∧ Tells log replies t.stage)
    ⟨OutputStream.plain_create, rfl, [], rfl, rfl, rfl, rfl, rfl⟩ (by
      rintro replies s reply t ⟨hplain, hnumber, log, htext, htells⟩ hstep
      have hprints := step_prints hplain hstep
      obtain ⟨htells', hnumber'⟩ := htells.step hnumber hstep
      refine ⟨hprints.plain hplain, hnumber', log ++ s.logged reply, ?_, htells'⟩
      rw [hprints.text_eq, htext, List.flatMap_append]) hrun
  obtain ⟨-, -, log, htext, htells⟩ := hinv
  exact ⟨log, by rw [htext, read_format (oneLine_of_message htells hlines)], htells⟩

/-- The loop waits, reads a ping, finds nothing more, and is stopped. -/
def onePing : List ServerReply :=
  [.goesOn true, .awaited true, .read (.ok (Channel.message 1 .ping 7)), .goesOn true,
    .read (.error .noDataAvailable), .goesOn false]

theorem log_of_run_onePing : ∃ t log, runAll (step false) start onePing = some t ∧
    LogEvent.format.read t.cout.text = some log ∧ Tells log onePing t.stage := by
  obtain ⟨t, hrun⟩ : ∃ t, runAll (step false) start onePing = some t := ⟨_, rfl⟩
  obtain ⟨log, hread, htells⟩ := log_of_run (fun m hm => by
    obtain rfl : m = Channel.message 1 .ping 7 := List.mem_singleton.mp hm
    trivial) hrun
  exact ⟨t, log, hrun, hread, htells⟩

end RunServer

end IpcPerformance
