import IpcPerformance.Log.Server

/-! # The log of `run_client`

The loop of a writer in the normal mode, from `src/main.cpp`: it writes a Java symbol with a random address
and a random length, prints when it has done so, and sleeps for a moment.

* `RunClient.step` — the loop, with the answers of its calls.
* `ClientEvent.format` — a line of the log, with the line in front of it if the `write` has failed. -/

namespace IpcPerformance

/-! ## The lines -/

/-- `test123` -/
def testName : List Char := ['t', 'e', 's', 't', '1', '2', '3']

/-- The symbols that are written. -/
def testSymbol (address : UInt64) (length : UInt32) : JavaSymbol :=
  ⟨address, length, .ofList (asBytes testName)⟩

/-- A round of the loop: the `i`-th `write`. -/
structure ClientEvent where
  /-- What the `write` has returned. -/
  ok : Bool
  /-- When the round has begun. -/
  ts : Int64
  /-- The address of the symbol. -/
  address : UInt64
  /-- Its length. -/
  length : UInt32
  /-- The number of the round. -/
  i : Int32

namespace ClientEvent

/-- The symbol. -/
def symbol (event : ClientEvent) : JavaSymbol := testSymbol event.address event.length

/-- `Error while writing data` -/
def errorText : List Char :=
  ['E', 'r', 'r', 'o', 'r', ' ', 'w', 'h', 'i', 'l', 'e', ' ', 'w', 'r', 'i', 't', 'i', 'n', 'g', ' ',
    'd', 'a', 't', 'a']

/-- The lines. -/
def text (event : ClientEvent) : List Char :=
  (if event.ok then [] else errorText ++ ['\n']) ++ Numeral.decimal event.ts.toInt ++ [' '] ++
    JavaSymbol.name ++ event.symbol.text ++ [' ', '-', ' '] ++ Numeral.decimal event.i.toInt ++ ['\n']

/-! ### Reading them -/

open Format

/-- The number at the beginning of a line. -/
def timestampFormat : Format Char Int64 :=
  (number ' ').via Int64.toInt Int64.ofInt Int64.ofInt_toInt

/-- The symbol. -/
def symbolFormat : Format Char ((UInt64 × UInt32) × Unit) :=
  ((((hexNumber 16).via UInt64.toNat UInt64.ofNat fun _ => UInt64.ofNat_toNat).behind
      (JavaSymbol.name ++ ['(', '0', 'x'])).seq
    (((hexNumber 8).via UInt32.toNat UInt32.ofNat fun _ => UInt32.ofNat_toNat).behind
      [',', ' ', '0', 'x'])).seq
    (literal ([',', ' ', '"'] ++ testName ++ ['"', ')']))

/-- The line of a round. -/
def lineFormat : Format Char ((Int64 × (UInt64 × UInt32) × Unit) × Int32) :=
  (timestampFormat.seq symbolFormat).seq ((LogEvent.int32 '\n').behind [' ', '-', ' '])

/-- What a line says. -/
def line (event : ClientEvent) : (Int64 × (UInt64 × UInt32) × Unit) × Int32 :=
  ((event.ts, (event.address, event.length), ()), event.i)

/-- The alternatives. -/
def toSum (event : ClientEvent) :
    ((Int64 × (UInt64 × UInt32) × Unit) × Int32) ⊕ ((Int64 × (UInt64 × UInt32) × Unit) × Int32) :=
  if event.ok then .inr event.line else .inl event.line

/-- The event of an alternative. -/
def ofSum : ((Int64 × (UInt64 × UInt32) × Unit) × Int32) ⊕ ((Int64 × (UInt64 × UInt32) × Unit) × Int32) →
    ClientEvent
  | .inl ((ts, (address, length), ()), i) => ⟨false, ts, address, length, i⟩
  | .inr ((ts, (address, length), ()), i) => ⟨true, ts, address, length, i⟩

/-- A line begins with a digit or a sign. -/
theorem head_lineFormat (p : (Int64 × (UInt64 × UInt32) × Unit) × Int32) :
    (lineFormat.encode p).head?.map (fun c => decide (c = 'E')) = some false := by
  have hnot : 'E' ∉ Numeral.decimal p.1.1.toInt := Numeral.not_mem_decimal (by decide) (by decide) _
  change ((Numeral.decimal p.1.1.toInt ++ [' '] ++ _) ++ _).head?.map _ = _
  cases hdigits : Numeral.decimal p.1.1.toInt with
  | nil => rfl
  | cons c ds =>
      rw [hdigits, List.mem_cons, not_or] at hnot
      change some (decide (c = 'E')) = some false
      rw [decide_eq_false (Ne.symm hnot.1)]

/-- **The format of the log.** -/
def format : Format Char ClientEvent :=
  (alt (fun c => decide (c = 'E')) (lineFormat.behind (errorText ++ ['\n'])) lineFormat
    (fun _ _ => rfl) fun p _ => head_lineFormat p).map ofSum toSum
      (by rintro (⟨⟨_, ⟨_, _⟩, _⟩, _⟩ | ⟨⟨_, ⟨_, _⟩, _⟩, _⟩) - <;> rfl)
      (by rintro ⟨_ | _, _, _, _, _⟩ <;> rfl)

/-- Every line can be written. -/
theorem dom_lineFormat (event : ClientEvent) : lineFormat.dom event.line := by
  have haddress : (Numeral.hexDigits 16 event.address.toNat).length = 16 :=
    Numeral.length_hexDigits (by decide) event.address.toNat_lt
  have hlength : (Numeral.hexDigits 8 event.length.toNat).length = 8 :=
    Numeral.length_hexDigits (by decide) event.length.toNat_lt
  exact ⟨⟨Numeral.not_mem_decimal (by decide) (by decide) _, ⟨⟨trivial, haddress⟩, trivial, hlength⟩,
    trivial⟩, trivial, Numeral.not_mem_decimal (by decide) (by decide) _⟩

theorem dom_format (event : ClientEvent) : format.dom event := by
  obtain ⟨ok, ts, address, length, i⟩ := event
  cases ok with
  | false => exact ⟨trivial, dom_lineFormat ⟨false, ts, address, length, i⟩⟩
  | true => exact dom_lineFormat ⟨true, ts, address, length, i⟩

theorem encode_lineFormat (event : ClientEvent) : lineFormat.encode event.line =
    Numeral.decimal event.ts.toInt ++ [' '] ++ JavaSymbol.name ++ event.symbol.text ++ [' ', '-', ' '] ++
      Numeral.decimal event.i.toInt ++ ['\n'] := by
  have hname : asChars event.symbol.symbol.bytes = testName := by rfl
  rw [JavaSymbol.text, hname]
  simp [lineFormat, line, timestampFormat, symbolFormat, LogEvent.int32, via, seq, behind, Format.map,
    literal, number, delimited, hexNumber, fixed, symbol, testSymbol]

theorem encode_format (event : ClientEvent) : format.encode event = event.text := by
  have hline := event.encode_lineFormat
  obtain ⟨ok, ts, address, length, i⟩ := event
  cases ok with
  | false =>
      change errorText ++ ['\n'] ++ lineFormat.encode (line ⟨false, ts, address, length, i⟩) = _
      rw [hline]
      simp [text]
  | true =>
      change lineFormat.encode (line ⟨true, ts, address, length, i⟩) = _
      rw [hline]
      simp [text]

theorem text_ne_nil (event : ClientEvent) : event.text ≠ [] := by
  rw [text]
  exact List.append_ne_nil_of_right_ne_nil _ (List.cons_ne_nil _ _)

/-- **A log is read as what it was written from.** -/
theorem read_format (log : List ClientEvent) : format.read (log.flatMap text) = some log := by
  have hencode : log.flatMap text = log.flatMap format.encode :=
    List.flatMap_congr fun event _ => (encode_format event).symm
  rw [hencode]
  refine format.read_flatMap (fun event _ => ?_) fun event _ => dom_format event
  rw [encode_format]
  exact text_ne_nil event

end ClientEvent

/-! ## The loop -/

/-- Where the loop is. -/
inductive ClientStage
  /-- At its condition. -/
  | checking
  /-- It gets the time and calls `rand`. -/
  | generating
  /-- In `write`, with the symbol of this address and this length. -/
  | writing (ts : Int64) (address : UInt64) (length : UInt32)
  /-- In `sleep_for`. -/
  | sleeping
  /-- The loop has been left. -/
  | returned
  deriving DecidableEq

/-- What the calls of the loop return; `rand` returns numbers up to `RAND_MAX`. -/
inductive ClientReply
  /-- `!stop && handler->is_open()` -/
  | goesOn (yes : Bool)
  /-- `get_timestamp`, and `rand` for the two halves of the address and for the length -/
  | generated (ts : Int64) (high low length : Fin (2 ^ 31))
  /-- `write` -/
  | wrote (ok : Bool)
  /-- `sleep_for` -/
  | slept

/-- `run_client`: its variable, its output, and where it is. -/
structure RunClient where
  /-- Where it is. -/
  stage : ClientStage
  /-- The number of the next round. -/
  i : Int32
  /-- `std::cout` -/
  cout : OutputStream

namespace RunClient

/-- Before the loop. -/
def start : RunClient := ⟨.checking, 1, .create⟩

/-- What is printed when `write` has returned. -/
def report (s : RunClient) (res : Bool) (ts : Int64) (data : JavaSymbol) : OutputStream :=
  let cout := if res then s.cout else (s.cout.put ClientEvent.errorText).endLine
  let cout := (data.print ((cout.putInt 64 ts.toInt).put ([' '] ++ JavaSymbol.name))).put [' ', '-', ' ']
  (cout.putInt 32 s.i.toInt).endLine

/-- One call of the loop returns. -/
def step (s : RunClient) : ClientReply → Option RunClient
  | .goesOn yes =>
      match s.stage with
      | .checking => some { s with stage := if yes then .generating else .returned }
      | _ => none
  | .generated ts high low length =>
      match s.stage with
      | .generating =>
          let address := (UInt64.ofNat high <<< 32) ||| UInt64.ofNat low
          some { s with stage := .writing ts address (UInt32.ofNat length) }
      | _ => none
  | .wrote ok =>
      match s.stage with
      | .writing ts address length =>
          some { s with
            stage := .sleeping
            i := s.i + 1
            cout := s.report ok ts (testSymbol address length) }
      | _ => none
  | .slept =>
      match s.stage with
      | .sleeping => some { s with stage := .checking }
      | _ => none

variable {s t : RunClient} {reply : ClientReply}

/-- What is printed of a round. -/
theorem report_prints (h : s.cout.Plain) (event : ClientEvent) (hi : event.i = s.i) :
    s.cout.Prints (s.report event.ok event.ts event.symbol) event.text := by
  have herror : s.cout.Prints
      (if event.ok then s.cout else (s.cout.put ClientEvent.errorText).endLine)
      (if event.ok then [] else ClientEvent.errorText ++ ['\n']) := by
    cases event.ok with
    | true => exact .refl s.cout
    | false => exact (OutputStream.Prints.of_put h ClientEvent.errorText).endLine
  have hname := (herror.putInt h 64 event.ts.toInt).put h ([' '] ++ JavaSymbol.name)
  have hline := (((hname.trans (event.symbol.prints (hname.plain h))).put h [' ', '-', ' ']).putInt h 32
    s.i.toInt).endLine
  rw [ClientEvent.text, hi]
  rw [← List.append_assoc] at hline
  exact hline

/-- A call that is no `write` prints nothing, and does not count. -/
theorem step_of_ne (hreply : ∀ ok, reply ≠ .wrote ok) (hstep : s.step reply = some t) :
    t.cout = s.cout ∧ t.i = s.i := by
  cases reply with
  | goesOn yes =>
      simp only [step] at hstep
      split at hstep <;> cases hstep
      exact ⟨rfl, rfl⟩
  | generated ts high low length =>
      simp only [step] at hstep
      split at hstep <;> cases hstep
      exact ⟨rfl, rfl⟩
  | wrote ok => exact absurd rfl (hreply ok)
  | slept =>
      simp only [step] at hstep
      split at hstep <;> cases hstep
      exact ⟨rfl, rfl⟩

/-- A `write` ends a round. -/
theorem step_wrote {ok : Bool} (h : s.cout.Plain) (hstep : s.step (.wrote ok) = some t) :
    ∃ event : ClientEvent, s.stage = .writing event.ts event.address event.length ∧ event.ok = ok ∧
      event.i = s.i ∧ t.i = s.i + 1 ∧ s.cout.Prints t.cout event.text := by
  cases hstage : s.stage with
  | writing ts address length =>
      simp only [step, hstage] at hstep
      cases hstep
      exact ⟨⟨ok, ts, address, length, s.i⟩, rfl, rfl, rfl, rfl,
        report_prints h ⟨ok, ts, address, length, s.i⟩ rfl⟩
  | _ =>
      simp only [step, hstage] at hstep
      cases hstep

end RunClient

end IpcPerformance
