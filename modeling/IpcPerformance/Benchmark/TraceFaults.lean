import IpcPerformance.Benchmark.Trace

/-! # Loading a trace

`run_real_world` of `src/main.cpp` from the file to its exit code, with the accesses of
`RealWorldBenchmark` to the data points: the first and the last of them for the estimated time, and those
the writer takes one after the other. Nothing on the way looks whether the file is what it should be.

* `TraceProgram.step` — one call of the handler or the clock.
* `TraceProgram.loadsSafely_iff` — the files that are safe to load, exactly. -/

namespace IpcPerformance

/-- `data_[i]` that `run_client` is going to access. -/
def RealWorldBenchmark.ClientPhase.index : ClientPhase → Option ℕ
  | .starting => some 0
  | .timing i => some i.toNat
  | .writing i => some i.toNat
  | .returned _ => none
  | .undefined => none

/-- How far `run_real_world` has got. -/
inductive TraceProgram
  /-- The file has been read, the handler is opened. -/
  | opening (data : List DataPoint) (readonly : Bool)
  /-- `run_server` runs. -/
  | serving (data : List DataPoint) (s : ServerState RealWorldBenchmark.State)
  /-- `run_client` runs. -/
  | writing (data : List DataPoint) (s : RealWorldBenchmark.ClientState)
  /-- `EXIT_SUCCESS` or `EXIT_FAILURE` is returned. -/
  | exited (success : Bool)
  /-- An access outside a vector or a string, or an exception. -/
  | faulted (fault : Fault)
  /-- A difference of times has overflowed, after which nothing is known. -/
  | overflowed

/-- What a call gives the program. -/
inductive TraceAnswer
  /-- `open` returns. -/
  | opened (success : Bool)
  /-- A call of `run_server` returns. -/
  | server (answer : Answer)
  /-- A call of `run_client` returns. -/
  | client (answer : RealWorldBenchmark.ClientAnswer)

namespace TraceProgram

/-- The data points of a file; one that cannot be opened has no lines. -/
def readTrace : Option (List UInt8) → Except Fault (List DataPoint)
  | none => .ok []
  | some file => parseTrace file

/-- The program begins. -/
def load (file : Option (List UInt8)) (readonly : Bool) : TraceProgram :=
  match readTrace file with
  | .error fault => .faulted fault
  | .ok data => .opening data readonly

/-- The program while `run_server` runs, and after it. -/
def ofServer (data : List DataPoint) (s : ServerState RealWorldBenchmark.State) : TraceProgram :=
  match s.phase with
  | .returned success => .exited success
  | _ => .serving data s

/-- The program while `run_client` runs, and after it. -/
def ofClient (data : List DataPoint) (s : RealWorldBenchmark.ClientState) : TraceProgram :=
  match s.phase with
  | .returned success => .exited success
  | .undefined => .overflowed
  | _ => .writing data s

/-- `RealWorldBenchmark::run` begins with `get_estimated_time`, in both roles. -/
def run (threshold : UInt32) (data : List DataPoint) (readonly : Bool) : TraceProgram :=
  match data.head?, data.getLast? with
  | some front, some back =>
      match checked (back.time.toInt - front.time.toInt) with
      | none => .overflowed
      | some _ =>
          if readonly then
            ofServer data ((RealWorldBenchmark.runServer data).start RealWorldBenchmark.initial)
          else ofClient data (runRealWorld data threshold).start
  | _, _ => .faulted .outOfBounds

/-- One call, and what the program does until the next one. -/
def step (threshold : UInt32) (program : TraceProgram) (answer : TraceAnswer) : Option TraceProgram :=
  match program, answer with
  | .opening data readonly, .opened success =>
      some (if success then run threshold data readonly else .exited false)
  | .serving data s, .server answer =>
      ((RealWorldBenchmark.runServer data).step s answer).map (ofServer data)
  | .writing data s, .client answer =>
      match s.phase.index with
      | none => none
      | some i =>
          if data.length ≤ i then some (.faulted .outOfBounds)
          else ((runRealWorld data threshold).step s answer).map (ofClient data)
  | _, _ => none

/-! ## Proper files -/

/-- The text is a number and nothing else: perhaps a sign, perhaps `0x` before hexadecimal digits, and
digits. -/
def IsNumber (base : ℕ) (s : List Char) (n : ℤ) : Prop :=
  ∃ (sign pre ds : List Char) (m : ℕ), s = sign ++ (pre ++ ds) ∧ Numeral.Spells base m ds ∧
    (pre = [] ∨ base = 16 ∧ (pre = ['0', 'x'] ∨ pre = ['0', 'X'])) ∧
    ((sign = [] ∨ sign = ['+']) ∧ n = m ∨ sign = ['-'] ∧ n = -m)

/-- The third, fourth and fifth field of a line and the ones for the name are as they should be: numbers
in their range, and a name that is not empty. -/
structure ProperFields (e2 e3 e4 : List UInt8) (names : List (List UInt8)) : Prop where
  time : ∃ n, IsNumber 10 (asChars (e2.drop 1)) n ∧ Fits64 n
  address : ∃ n, IsNumber 16 (asChars e3) n ∧ 0 ≤ n ∧ n < 2 ^ 64
  length : ∃ n, IsNumber 10 (asChars e4.dropLast) n ∧ 0 ≤ n ∧ n < 2 ^ 32
  name : (List.intercalate [space] names).filter (· ≠ carriageReturn) ≠ []

/-- A line with six fields or more, which are as they should be. -/
def ProperLine (line : List UInt8) : Prop :=
  ∃ e0 e1 e2 e3 e4 e5 rest, fields space line = e0 :: e1 :: e2 :: e3 :: e4 :: e5 :: rest ∧
    ProperFields e2 e3 e4 (e5 :: rest)

/-- A file that can be opened, has a line, and has proper lines only. -/
def ProperTrace : Option (List UInt8) → Prop
  | none => False
  | some file => file ≠ [] ∧ ∀ line ∈ fields newline file, ProperLine line

/-- The benchmark has not been run. -/
def NotRun : TraceProgram → Prop
  | opening _ _ => True
  | exited success => success = false
  | _ => False

/-- The file does no harm, whatever the handler does: there is no fault, and a file that is not proper is
refused without running the benchmark. -/
def LoadsSafely (file : Option (List UInt8)) : Prop :=
  ∀ (threshold : UInt32) (readonly : Bool) (answers : List TraceAnswer) (t : TraceProgram),
    runAll (step threshold) (load file readonly) answers = some t →
      (∀ fault, t ≠ .faulted fault) ∧ (¬ ProperTrace file → t.NotRun)

/-! ## Proper files are parsed -/

/-- **A number is read** as it is written. -/
theorem scanNumber_of_isNumber {base : ℕ} {s : List Char} {n : ℤ} (h : IsNumber base s n)
    (hbase : base ≤ 16) :
    ∃ negative m, scanNumber base s = some (negative, m) ∧ n = if negative then -(m : ℤ) else m := by
  obtain ⟨sign, pre, ds, m, rfl, hspells, hpre, hsign⟩ := h
  -- behind the sign stands a digit, of the number or of the prefix
  have htext : ∃ c rest, pre ++ ds = c :: rest ∧ Numeral.digit c < 36 ∧
      leadingDigits base (c :: rest) = ds := by
    rcases hpre with rfl | ⟨rfl, rfl | rfl⟩
    · obtain ⟨c, rest, rfl⟩ := List.exists_cons_of_ne_nil hspells.ne_nil
      exact ⟨c, rest, rfl, digit_lt_of_spells hspells hbase List.mem_cons_self,
        leadingDigits_of_spells hspells hbase⟩
    · exact ⟨'0', 'x' :: ds, rfl, by decide, leadingDigits_hex hspells (.inl rfl)⟩
    · exact ⟨'0', 'X' :: ds, rfl, by decide, leadingDigits_hex hspells (.inr rfl)⟩
  obtain ⟨c, rest, htext, hc, hleading⟩ := htext
  have hplain : scanNumber base (c :: rest) = some (false, m) := by
    rw [scanNumber_of_digit base hc, hleading, if_neg hspells.ne_nil, hspells.value_eq]
  -- a sign is taken away, and nothing else changes
  have hsigned (negative : Bool) :
      (if leadingDigits base (c :: rest) = [] then none
        else some (negative, Numeral.value base (leadingDigits base (c :: rest)))) =
      some (negative, m) := by
    rw [hleading, if_neg hspells.ne_nil, hspells.value_eq]
  rw [htext]
  rcases hsign with ⟨rfl | rfl, hn⟩ | ⟨rfl, hn⟩
  · exact ⟨false, m, hplain, hn⟩
  · exact ⟨false, m, hsigned false, hn⟩
  · exact ⟨true, m, hsigned true, hn⟩

/-- There is a time. -/
theorem exists_stoll {s : List Char} (h : ∃ n, IsNumber 10 s n ∧ Fits64 n) :
    ∃ time, stoll s = some time := by
  obtain ⟨n, hn, hfits⟩ := h
  obtain ⟨negative, m, hscan, rfl⟩ := scanNumber_of_isNumber hn (by decide)
  exact ⟨_, by rw [stoll, hscan]; exact if_pos hfits⟩

/-- A number in a range of non-negative ones is not too large. -/
theorem lt_of_signed {negative : Bool} {m : ℕ} {limit : ℤ}
    (hlt : (if negative then -(m : ℤ) else m) < limit) (hpos : 0 ≤ if negative then -(m : ℤ) else m) :
    (m : ℤ) < limit := by
  cases negative with
  | false => exact hlt
  | true =>
      simp only [if_true] at hlt hpos
      omega

/-- There is an address. -/
theorem exists_stoullHex {s : List Char} (h : ∃ n, IsNumber 16 s n ∧ 0 ≤ n ∧ n < 2 ^ 64) :
    ∃ address, stoullHex s = some address := by
  obtain ⟨n, hn, hpos, hlt⟩ := h
  obtain ⟨negative, m, hscan, rfl⟩ := scanNumber_of_isNumber hn (le_refl 16)
  have hm := lt_of_signed hlt hpos
  exact ⟨_, by rw [stoullHex, hscan]; exact if_neg (by omega)⟩

/-- There is a length. -/
theorem exists_stoul {s : List Char} (h : ∃ n, IsNumber 10 s n ∧ 0 ≤ n ∧ n < 2 ^ 32) :
    ∃ length, stoul s = some length := by
  obtain ⟨n, hn, hpos, hlt⟩ := h
  obtain ⟨negative, m, hscan, rfl⟩ := scanNumber_of_isNumber hn (by decide)
  have hm := lt_of_signed hlt hpos
  exact ⟨_, by rw [stoul_eq, hscan]; exact if_neg (by omega)⟩

/-- There is no number in nothing. -/
theorem IsNumber.ne_nil {base : ℕ} {s : List Char} {n : ℤ} (h : IsNumber base s n) : s ≠ [] := by
  obtain ⟨sign, pre, ds, m, rfl, hspells, -⟩ := h
  exact List.append_ne_nil_of_right_ne_nil _ (List.append_ne_nil_of_right_ne_nil _ hspells.ne_nil)

/-- **A proper line is parsed.** -/
theorem ProperLine.parse {line : List UInt8} (h : ProperLine line) :
    ∃ point, parseLine line = .ok point := by
  obtain ⟨e0, e1, e2, e3, e4, e5, rest, hfields, hproper⟩ := h
  obtain ⟨time, htime⟩ := exists_stoll hproper.time
  obtain ⟨address, haddress⟩ := exists_stoullHex hproper.address
  obtain ⟨length, hlength⟩ := exists_stoul hproper.length
  have hne : e4 ≠ [] := by
    rintro rfl
    obtain ⟨n, hn, -⟩ := hproper.length
    exact hn.ne_nil rfl
  exact ⟨_, parseLine_eq hfields htime haddress hne hlength⟩

/-- Proper lines are parsed, one data point for each. -/
theorem exists_parseLines {lines : List (List UInt8)} (h : ∀ line ∈ lines, ProperLine line) :
    ∃ data, parseLines lines = .ok data ∧ data.length = lines.length := by
  induction lines with
  | nil => exact ⟨[], rfl, rfl⟩
  | cons line lines ih =>
      rw [List.forall_mem_cons] at h
      obtain ⟨point, hpoint⟩ := h.1.parse
      obtain ⟨data, hdata, hlength⟩ := ih h.2
      refine ⟨point :: data, ?_, congrArg Nat.succ hlength⟩
      rw [parseLines, hpoint, hdata]
      rfl

/-- **A proper file** has data points, and the program is ready for them. -/
theorem ProperTrace.load {file : Option (List UInt8)} (h : ProperTrace file) (readonly : Bool) :
    ∃ data, load file readonly = .opening data readonly ∧ data ≠ [] := by
  cases file with
  | none => exact h.elim
  | some file =>
      obtain ⟨data, hdata, hlength⟩ := exists_parseLines h.2
      refine ⟨data, ?_, ?_⟩
      · simp only [TraceProgram.load, readTrace, parseTrace, hdata]
      · rintro rfl
        exact h.1 (fields_eq_nil.mp (List.length_eq_zero_iff.mp hlength.symm))

/-! ## The benchmark stays inside -/

/-- The accesses to come are inside the data. -/
def Inside : TraceProgram → Prop
  | opening data _ => data ≠ []
  | writing data s => ∀ i, s.phase.index = some i → i < data.length
  | faulted _ => False
  | _ => True

/-- The next round accesses a point there is. -/
theorem index_nextPoint {bench : RealWorldBenchmark} {i : UInt32} {j : ℕ}
    (h : (bench.nextPoint i).index = some j) : j < bench.data.length := by
  unfold RealWorldBenchmark.nextPoint at h
  split at h
  · rename_i hi
    cases h
    exact hi
  · cases h

/-- **A step of the writer** that accesses a point there is leads to another one. -/
theorem index_step {bench : RealWorldBenchmark} {s t : RealWorldBenchmark.ClientState}
    {answer : RealWorldBenchmark.ClientAnswer}
    (hinside : ∀ i, s.phase.index = some i → i < bench.data.length)
    (hstep : bench.step s answer = some t) : ∀ i, t.phase.index = some i → i < bench.data.length := by
  intro j hj
  unfold RealWorldBenchmark.step at hstep
  split at hstep
  · -- the first clock
    split at hstep
    · cases hstep
      cases hj
    · split at hstep
      · cases hstep
        cases hj
      · cases hstep
        exact index_nextPoint hj
  · -- the clock of a point: it is written next
    rename_i i now hphase
    rw [hphase] at hinside
    split at hstep
    · cases hstep
      cases hj
    · split at hstep
      · cases hstep
        exact hinside j hj
      · cases hstep
        cases hj
  · -- the write of a point
    split at hstep
    · cases hstep
      cases hj
    · split at hstep
      · cases hstep
        exact index_nextPoint hj
      · cases hstep
        cases hj
  · cases hstep

theorem inside_ofServer (data : List DataPoint) (s : ServerState RealWorldBenchmark.State) :
    (ofServer data s).Inside := by
  unfold ofServer
  split <;> trivial

theorem inside_ofClient {data : List DataPoint} {s : RealWorldBenchmark.ClientState}
    (h : ∀ i, s.phase.index = some i → i < data.length) : (ofClient data s).Inside := by
  unfold ofClient
  split
  · trivial
  · trivial
  · exact h

/-- The benchmark begins with data. -/
theorem inside_run (threshold : UInt32) {data : List DataPoint} (hdata : data ≠ []) (readonly : Bool) :
    (run threshold data readonly).Inside := by
  have hpos := List.length_pos_of_ne_nil hdata
  rw [run, List.head?_eq_some_head hdata, List.getLast?_eq_some_getLast hdata]
  dsimp only
  split
  · trivial
  · split
    · exact inside_ofServer data _
    · refine inside_ofClient fun i hi => ?_
      rw [RealWorldBenchmark.start_eq hdata] at hi
      split at hi
      · cases hi
        exact hpos
      · cases hi

/-- **Every step stays inside.** -/
theorem Inside.step {threshold : UInt32} {s t : TraceProgram} {answer : TraceAnswer} (hinside : s.Inside)
    (hstep : s.step threshold answer = some t) : t.Inside := by
  unfold TraceProgram.step at hstep
  split at hstep
  · -- the handler has been opened, or could not be
    cases hstep
    split
    · exact inside_run threshold hinside _
    · trivial
  · obtain ⟨s', -, rfl⟩ := Option.map_eq_some_iff.mp hstep
    exact inside_ofServer _ s'
  · split at hstep
    · cases hstep
    · rename_i i hi
      rw [if_neg (Nat.not_le.mpr (hinside i hi))] at hstep
      obtain ⟨s', hs', rfl⟩ := Option.map_eq_some_iff.mp hstep
      refine inside_ofClient (index_step ?_ hs')
      exact hinside
  · cases hstep

theorem Inside.ne_faulted {t : TraceProgram} (h : t.Inside) (fault : Fault) : t ≠ .faulted fault := by
  rintro rfl
  exact h

/-! ## Safety -/

/-- The writer begins with the first clock, unless the estimated time has overflowed. -/
theorem phase_start (bench : RealWorldBenchmark) :
    bench.start.phase = .starting ∨ bench.start.phase = .undefined := by
  unfold RealWorldBenchmark.start
  split
  · split
    · exact .inl rfl
    · exact .inr rfl
  · exact .inr rfl

/-- Once the handler is open, the writer runs. -/
theorem not_notRun_run (threshold : UInt32) (data : List DataPoint) :
    ¬ (run threshold data false).NotRun := by
  unfold run
  split
  · split
    · exact id
    · rw [if_neg Bool.false_ne_true, ofClient]
      rcases phase_start (runRealWorld data threshold) with hphase | hphase
      · rw [hphase]
        exact id
      · rw [hphase]
        exact id
  · exact id

/-- **The files that are safe to load** are the proper ones: any other leads to a fault, or to a run of
the benchmark. -/
theorem loadsSafely_iff (file : Option (List UInt8)) : LoadsSafely file ↔ ProperTrace file := by
  constructor
  · intro hsafe
    by_contra hproper
    cases hread : readTrace file with
    | error fault =>
        have hload : load file false = .faulted fault := by rw [load, hread]
        exact (hsafe 0 false [] _ (congrArg some hload)).1 fault rfl
    | ok data =>
        -- the file is accepted, so the handler is opened and the benchmark is run
        have hload : load file false = .opening data false := by rw [load, hread]
        have hrun : runAll (step 0) (load file false) [.opened true] = some (run 0 data false) := by
          rw [hload]
          rfl
        exact not_notRun_run 0 data ((hsafe 0 false _ _ hrun).2 hproper)
  · intro hproper threshold readonly answers t hrun
    obtain ⟨data, hload, hdata⟩ := hproper.load readonly
    have hstart : (load file readonly).Inside := by rwa [hload]
    have hinside : t.Inside := runAll_preserves (fun _ _ _ hs hstep => hs.step hstep) hstart hrun
    exact ⟨hinside.ne_faulted, fun hnot => absurd hproper hnot⟩

/-- A file that does not exist is loaded as one without lines, of which the last is asked for. -/
theorem not_loadsSafely_missing : ¬ ∀ file, LoadsSafely file := by
  intro hsafe
  exact (hsafe none 0 true [.opened true] _ rfl).1 .outOfBounds rfl

/-! ## Written traces are proper -/

/-- A numeral is a number. -/
theorem isNumber_of_spells {base m : ℕ} {ds : List Char} (h : Numeral.Spells base m ds) :
    IsNumber base ds m :=
  ⟨[], [], ds, m, rfl, h, .inl rfl, .inl ⟨.inl rfl, rfl⟩⟩

/-- A line of a trace is proper. -/
theorem properLine_text (l : TraceLine) : ProperLine l.text := by
  have hfields := l.fields_text
  have hintercalate := l.intercalate_ending
  obtain ⟨first, rest, hending⟩ := l.exists_fields_ending
  rw [hending] at hfields hintercalate
  refine ⟨_, _, _, _, _, first, rest, hfields, ?_, ?_, ?_, ?_⟩
  · have htime := spells_decimal l.time
    have hlt := l.time_lt
    refine ⟨l.time, ?_, by omega, by omega⟩
    change IsNumber 10 (asChars (asBytes (Nat.toDigits 10 l.time))) l.time
    rw [asChars_of_spells htime (by decide)]
    exact isNumber_of_spells htime
  · refine ⟨l.address.toNat, ?_, Int.natCast_nonneg _, by exact_mod_cast l.address.toNat_lt⟩
    rw [l.asChars_address]
    exact ⟨[], ['0', 'x'], l.hex, _, rfl, l.hex_spells, .inr ⟨rfl, .inl rfl⟩, .inl ⟨.inl rfl, rfl⟩⟩
  · have hlength := spells_decimal l.length.toNat
    refine ⟨l.length.toNat, ?_, Int.natCast_nonneg _, by exact_mod_cast l.length.toNat_lt⟩
    rw [l.dropLast_length, asChars_of_spells hlength (by decide)]
    exact isNumber_of_spells hlength
  · rw [hintercalate, l.filter_ending]
    exact l.name_ne

/-- **A trace that has been written** is a proper file, if it has a line. -/
theorem properTrace_formatTrace {lines : List TraceLine} (hne : lines ≠ []) (finalNewline : Bool) :
    ProperTrace (some (formatTrace lines finalNewline)) := by
  have hfields := fields_formatTrace lines finalNewline
  refine ⟨fun hnil => ?_, ?_⟩
  · rw [hnil] at hfields
    exact hne (List.map_eq_nil_iff.mp hfields.symm)
  · rw [hfields]
    exact List.forall_mem_map.mpr fun l _ => properLine_text l

end TraceProgram

end IpcPerformance
