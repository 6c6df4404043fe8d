import IpcPerformance.Benchmark.Trace
import IpcPerformance.Handler.RingNames

/-! # The command line

`main`: from the words of the command line to the handler, the role and the task of a process.

* `main` — what a process does with its words.
* `main_eq_started_iff` — which command lines start something, and what.
* `main_commandLine` — what becomes of the command line that is written for a task. -/

namespace IpcPerformance

/-! ## Handlers -/

/-- The types of handlers. -/
inductive HandlerType
  | dbus
  | fifo
  | queue
  | dgram
  | stream
  | udp
  | tcp
  | memory
  | mapped
  | file
  deriving DecidableEq

/-- What `create_handler` makes, with the name it gives. -/
inductive CreatedHandler
  | dbus (name : List Char)
  | fifo (path : List Char)
  | messageQueue (name : List Char)
  /-- A local socket has no port. -/
  | datagramSocket (address : List Char) (port : Option UInt16)
  | streamSocket (address : List Char) (port : Option UInt16)
  | ring (name : RingName)

namespace HandlerType

/-- The word for a type. -/
def word : HandlerType → List Char
  | dbus => ['d', 'b', 'u', 's']
  | fifo => ['f', 'i', 'f', 'o']
  | queue => ['q', 'u', 'e', 'u', 'e']
  | dgram => ['d', 'g', 'r', 'a', 'm']
  | stream => ['s', 't', 'r', 'e', 'a', 'm']
  | udp => ['u', 'd', 'p']
  | tcp => ['t', 'c', 'p']
  | memory => ['m', 'e', 'm', 'o', 'r', 'y']
  | mapped => ['m', 'a', 'p', 'p', 'e', 'd']
  | file => ['f', 'i', 'l', 'e']

/-- The types, in the order in which `create_handler` compares them. -/
def all : List HandlerType := [dbus, fifo, queue, dgram, stream, udp, tcp, memory, mapped, file]

/-- The type with this word. -/
def ofWord (type : List Char) : Option HandlerType := all.find? fun t => type = t.word

/-- One branch of `create_handler`. -/
def create (path : List Char) : HandlerType → CreatedHandler
  | dbus => .dbus (['i', 'p', 'c', '.'] ++ path ++ ['.', 's', 'e', 'r', 'v', 'e', 'r'])
  | fifo => .fifo (['/', 't', 'm', 'p', '/'] ++ path)
  | queue => .messageQueue ('/' :: path)
  | dgram => .datagramSocket (['/', 't', 'm', 'p', '/'] ++ path) none
  | stream => .streamSocket (['/', 't', 'm', 'p', '/'] ++ path) none
  | udp => .datagramSocket path (some 8080)
  | tcp => .streamSocket path (some 8080)
  | memory => .ring (.createHandler .memory path)
  | mapped => .ring (.createHandler .mapped path)
  | file => .ring (.createHandler .file path)

end HandlerType

/-- `create_handler`; the role is passed on. -/
def createHandler (type path : List Char) : Option CreatedHandler :=
  (HandlerType.ofWord type).map fun t => t.create path

/-- The path that `main` gives it: an address, or a name. -/
def handlerPath (type : List Char) : List Char :=
  if type = HandlerType.udp.word ∨ type = HandlerType.tcp.word then
    ['1', '2', '7', '.', '0', '.', '0', '.', '1']
  else ['i', 'p', 'c', '-', 'h', 'a', 'n', 'd', 'l', 'e', 'r']

/-! ## Tasks -/

/-- The kinds of programs. -/
inductive ProgramKind
  | normal
  | latency
  | throughput
  | execution
  | realworld
  deriving DecidableEq

namespace ProgramKind

/-- The word for a kind. -/
def word : ProgramKind → List Char
  | normal => ['n', 'o', 'r', 'm', 'a', 'l']
  | latency => ['l', 'a', 't', 'e', 'n', 'c', 'y']
  | throughput => ['t', 'h', 'r', 'o', 'u', 'g', 'h', 'p', 'u', 't']
  | execution => ['e', 'x', 'e', 'c', 'u', 't', 'i', 'o', 'n']
  | realworld => ['r', 'e', 'a', 'l', 'w', 'o', 'r', 'l', 'd']

/-- The kinds, in the order in which `main` compares them. -/
def all : List ProgramKind := [normal, latency, throughput, execution, realworld]

/-- The kind with this word. -/
def ofWord (kind : List Char) : Option ProgramKind := all.find? fun k => kind = k.word

end ProgramKind

/-- What a process runs, with the parameters of `run_latency` and the others: numbers of type `ν`. -/
inductive LaunchTask (ν : Type)
  | normal
  | latency (iterations delay : ν)
  | throughput (iterations size : ν)
  | execution (iterations size delay : ν)
  | realworld (path : List Char) (threshold : ν)

/-- A process that runs something. -/
structure Launch where
  handler : CreatedHandler
  /-- Whether it is the reader. -/
  readonly : Bool
  task : LaunchTask UInt32

/-- What becomes of a command line. -/
inductive LaunchOutcome
  /-- It says `Missing arguments`. -/
  | missingArguments
  /-- It says `Invalid parameter`. -/
  | invalidParameter
  /-- It says `Invalid program kind`. -/
  | invalidKind
  /-- It ends with an exception of `std::stoul`. -/
  | thrown
  | started (l : Launch)

/-- `std::stoul`, and then the conversion to an `unsigned int`. -/
def unsignedInt (s : List Char) : Option UInt32 := (stoul s).map UInt32.ofNat

/-- The task of a kind, if its parameters can be converted. -/
def LaunchTask.parse : ProgramKind → List (List Char) → Option (Option (LaunchTask UInt32))
  | .normal, _ => some (some .normal)
  | .latency, iterations :: delay :: _ =>
      some (do return .latency (← unsignedInt iterations) (← unsignedInt delay))
  | .throughput, iterations :: size :: _ =>
      some (do return .throughput (← unsignedInt iterations) (← unsignedInt size))
  | .execution, iterations :: size :: delay :: _ =>
      some (do
        return .execution (← unsignedInt iterations) (← unsignedInt size) (← unsignedInt delay))
  | .realworld, path :: threshold :: _ => some (do return .realworld path (← unsignedInt threshold))
  -- there are fewer words
  | _, _ => none

/-- The word for a reader. -/
def readerWord : List Char := ['r', 'e', 'a', 'd', 'e', 'r']

/-- The word for a writer; every other word means the same. -/
def writerWord : List Char := ['w', 'r', 'i', 't', 'e', 'r']

/-- `main`: the first word is the name of the program. -/
def main : List (List Char) → LaunchOutcome
  | _ :: kind :: type :: mode :: parameters =>
      match createHandler type (handlerPath type) with
      | none => .invalidParameter
      | some handler =>
          match ProgramKind.ofWord kind with
          | none => .invalidKind
          | some kind =>
              match LaunchTask.parse kind parameters with
              | none => .missingArguments
              | some none => .thrown
              | some (some task) => .started ⟨handler, decide (mode = readerWord), task⟩
  | _ => .missingArguments

/-! ## Words -/

theorem HandlerType.ofWord_eq_some {type : List Char} {t : HandlerType} :
    HandlerType.ofWord type = some t ↔ type = t.word := by
  constructor
  · intro h
    have hword := List.find?_some h
    exact of_decide_eq_true hword
  · rintro rfl
    cases t <;> rfl

theorem ProgramKind.ofWord_eq_some {kind : List Char} {k : ProgramKind} :
    ProgramKind.ofWord kind = some k ↔ kind = k.word := by
  constructor
  · intro h
    have hword := List.find?_some h
    exact of_decide_eq_true hword
  · rintro rfl
    cases k <;> rfl

/-- The kind of a task. -/
def LaunchTask.kind {ν : Type} : LaunchTask ν → ProgramKind
  | normal => .normal
  | latency _ _ => .latency
  | throughput _ _ => .throughput
  | execution _ _ _ => .execution
  | realworld _ _ => .realworld

/-- The words are those of the parameters; others may follow. -/
def LaunchTask.ReadFrom (parameters : List (List Char)) : LaunchTask UInt32 → Prop
  | normal => True
  | latency iterations delay => ∃ a b rest, parameters = a :: b :: rest ∧
      unsignedInt a = some iterations ∧ unsignedInt b = some delay
  | throughput iterations size => ∃ a b rest, parameters = a :: b :: rest ∧
      unsignedInt a = some iterations ∧ unsignedInt b = some size
  | execution iterations size delay => ∃ a b c rest, parameters = a :: b :: c :: rest ∧
      unsignedInt a = some iterations ∧ unsignedInt b = some size ∧ unsignedInt c = some delay
  | realworld path threshold => ∃ b rest, parameters = path :: b :: rest ∧ unsignedInt b = some threshold

/-- **The parameters of a task**. -/
theorem LaunchTask.parse_eq_some_iff {kind : ProgramKind} {parameters : List (List Char)}
    {task : LaunchTask UInt32} :
    LaunchTask.parse kind parameters = some (some task) ↔ kind = task.kind ∧ task.ReadFrom parameters := by
  constructor
  · intro h
    unfold parse at h
    split at h
    · cases h
      exact ⟨rfl, trivial⟩
    · simp only [Option.some.injEq, Option.bind_eq_bind, Option.bind_eq_some_iff, Option.pure_def] at h
      obtain ⟨a, ha, b, hb, rfl⟩ := h
      exact ⟨rfl, _, _, _, rfl, ha, hb⟩
    · simp only [Option.some.injEq, Option.bind_eq_bind, Option.bind_eq_some_iff, Option.pure_def] at h
      obtain ⟨a, ha, b, hb, rfl⟩ := h
      exact ⟨rfl, _, _, _, rfl, ha, hb⟩
    · simp only [Option.some.injEq, Option.bind_eq_bind, Option.bind_eq_some_iff, Option.pure_def] at h
      obtain ⟨a, ha, b, hb, c, hc, rfl⟩ := h
      exact ⟨rfl, _, _, _, _, rfl, ha, hb, hc⟩
    · simp only [Option.some.injEq, Option.bind_eq_bind, Option.bind_eq_some_iff, Option.pure_def] at h
      obtain ⟨b, hb, rfl⟩ := h
      exact ⟨rfl, _, _, rfl, hb⟩
    · cases h
  · rintro ⟨rfl, h⟩
    cases task with
    | normal => rfl
    | latency iterations delay =>
        obtain ⟨a, b, rest, rfl, ha, hb⟩ := h
        simp [kind, parse, ha, hb]
    | throughput iterations size =>
        obtain ⟨a, b, rest, rfl, ha, hb⟩ := h
        simp [kind, parse, ha, hb]
    | execution iterations size delay =>
        obtain ⟨a, b, c, rest, rfl, ha, hb, hc⟩ := h
        simp [kind, parse, ha, hb, hc]
    | realworld path threshold =>
        obtain ⟨b, rest, rfl, hb⟩ := h
        simp [kind, parse, hb]

/-- **Which command lines start something**, and what. -/
theorem main_eq_started_iff {words : List (List Char)} {l : Launch} :
    main words = .started l ↔ ∃ program t mode parameters,
      words = program :: l.task.kind.word :: HandlerType.word t :: mode :: parameters ∧
      l.handler = t.create (handlerPath t.word) ∧ l.readonly = decide (mode = readerWord) ∧
      l.task.ReadFrom parameters := by
  constructor
  · intro h
    unfold main at h
    split at h
    · rename_i program kind type mode parameters
      split at h
      · cases h
      · rename_i handler hhandler
        obtain ⟨t, ht, rfl⟩ := Option.map_eq_some_iff.mp hhandler
        obtain rfl := HandlerType.ofWord_eq_some.mp ht
        split at h
        · cases h
        · rename_i k hkind
          obtain rfl := ProgramKind.ofWord_eq_some.mp hkind
          split at h
          · cases h
          · cases h
          · rename_i task htask
            cases h
            obtain ⟨rfl, hread⟩ := LaunchTask.parse_eq_some_iff.mp htask
            exact ⟨program, t, mode, parameters, rfl, rfl, rfl, hread⟩
    · cases h
  · rintro ⟨program, t, mode, parameters, rfl, hhandler, hreadonly, hread⟩
    obtain ⟨handler, readonly, task⟩ := l
    have ht : HandlerType.ofWord t.word = some t := HandlerType.ofWord_eq_some.mpr rfl
    have hkind : ProgramKind.ofWord task.kind.word = some task.kind :=
      ProgramKind.ofWord_eq_some.mpr rfl
    have htask : LaunchTask.parse task.kind parameters = some (some task) :=
      LaunchTask.parse_eq_some_iff.mpr ⟨rfl, hread⟩
    simp only [main, createHandler, ht, Option.map_some, hkind, htask]
    rw [show handler = _ from hhandler, show readonly = _ from hreadonly]

/-! ## Writing command lines -/

namespace LaunchTask

/-- The words for the parameters of a task. -/
def words : LaunchTask ℕ → List (List Char)
  | normal => []
  | latency iterations delay => [Nat.toDigits 10 iterations, Nat.toDigits 10 delay]
  | throughput iterations size => [Nat.toDigits 10 iterations, Nat.toDigits 10 size]
  | execution iterations size delay =>
      [Nat.toDigits 10 iterations, Nat.toDigits 10 size, Nat.toDigits 10 delay]
  | realworld path threshold => [path, Nat.toDigits 10 threshold]

/-- The numbers of a task. -/
def numbers {ν : Type} : LaunchTask ν → List ν
  | normal => []
  | latency iterations delay => [iterations, delay]
  | throughput iterations size => [iterations, size]
  | execution iterations size delay => [iterations, size, delay]
  | realworld _ threshold => [threshold]

/-- The same task with other numbers. -/
def map {ν μ : Type} (f : ν → μ) : LaunchTask ν → LaunchTask μ
  | normal => .normal
  | latency iterations delay => .latency (f iterations) (f delay)
  | throughput iterations size => .throughput (f iterations) (f size)
  | execution iterations size delay => .execution (f iterations) (f size) (f delay)
  | realworld path threshold => .realworld path (f threshold)

end LaunchTask

/-- The command line for a task. -/
def commandLine (program : List Char) (t : HandlerType) (readonly : Bool) (task : LaunchTask ℕ) :
    List (List Char) :=
  program :: task.kind.word :: t.word :: (if readonly then readerWord else writerWord) :: task.words

/-- A number is converted, if it fits into 64 bits. -/
theorem unsignedInt_toDigits (n : ℕ) :
    unsignedInt (Nat.toDigits 10 n) = if n < 2 ^ 64 then some (UInt32.ofNat n) else none := by
  have hspells := Numeral.spells_toDigits (show 1 < 10 by decide) (by decide) n
  rw [unsignedInt, stoul_eq, scanNumber_of_spells hspells (by decide)]
  dsimp only
  split
  · rename_i hlarge
    rw [if_neg (Nat.not_lt.mpr hlarge)]
    rfl
  · rename_i hsmall
    rw [if_pos (Nat.not_le.mp hsmall)]
    rfl

/-- Two numbers, converted one after the other. -/
theorem convert_two {α : Type} (f : UInt32 → UInt32 → α) (a b : ℕ) :
    (do return f (← unsignedInt (Nat.toDigits 10 a)) (← unsignedInt (Nat.toDigits 10 b))) =
      if ∀ n ∈ [a, b], n < 2 ^ 64 then some (f (UInt32.ofNat a) (UInt32.ofNat b)) else none := by
  simp only [unsignedInt_toDigits, List.forall_mem_cons]
  by_cases ha : a < 2 ^ 64 <;> by_cases hb : b < 2 ^ 64 <;>
    simp only [ha, hb, if_true, if_false, true_and, false_and, List.not_mem_nil, false_imp_iff,
      implies_true, and_self] <;> rfl

/-- **The parameters that are written** are read again, if they all fit. -/
theorem LaunchTask.parse_words (task : LaunchTask ℕ) :
    LaunchTask.parse task.kind task.words =
      some (if ∀ n ∈ task.numbers, n < 2 ^ 64 then some (task.map UInt32.ofNat) else none) := by
  cases task with
  | normal => exact congrArg some (if_pos nofun).symm
  | latency iterations delay => exact congrArg some (convert_two LaunchTask.latency iterations delay)
  | throughput iterations size => exact congrArg some (convert_two LaunchTask.throughput iterations size)
  | execution iterations size delay =>
      -- the last two of them are converted when the first one has been
      have hrest (first : UInt32) := convert_two (LaunchTask.execution first) size delay
      simp only [kind, words, parse, numbers, map, hrest]
      have hall : (∀ n ∈ [iterations, size, delay], n < 2 ^ 64) ↔
          iterations < 2 ^ 64 ∧ ∀ n ∈ [size, delay], n < 2 ^ 64 := List.forall_mem_cons
      rw [unsignedInt_toDigits]
      by_cases ha : iterations < 2 ^ 64
      · rw [if_pos ha]
        by_cases hb : ∀ n ∈ [size, delay], n < 2 ^ 64
        · exact congrArg some ((if_pos hb).trans (if_pos (hall.mpr ⟨ha, hb⟩)).symm)
        · exact congrArg some ((if_neg hb).trans (if_neg fun h => hb (hall.mp h).2).symm)
      · rw [if_neg ha]
        exact congrArg some (if_neg fun h => ha (hall.mp h).1).symm
  | realworld path threshold =>
      simp only [kind, words, parse, numbers, map, unsignedInt_toDigits, List.forall_mem_singleton]
      by_cases ha : threshold < 2 ^ 64
      · rw [if_pos ha, if_pos ha]
        rfl
      · rw [if_neg ha, if_neg ha]
        rfl

/-- **The command line for a task** starts it, with its numbers modulo `2 ^ 32`, unless one of them does
not fit into 64 bits. -/
theorem main_commandLine (program : List Char) (t : HandlerType) (readonly : Bool) (task : LaunchTask ℕ) :
    main (commandLine program t readonly task) =
      if ∀ n ∈ task.numbers, n < 2 ^ 64 then
        .started ⟨t.create (handlerPath t.word), readonly, task.map UInt32.ofNat⟩
      else .thrown := by
  have ht : HandlerType.ofWord t.word = some t := HandlerType.ofWord_eq_some.mpr rfl
  have hkind : ProgramKind.ofWord task.kind.word = some task.kind := ProgramKind.ofWord_eq_some.mpr rfl
  have hmode : decide ((if readonly then readerWord else writerWord) = readerWord) = readonly := by
    cases readonly <;> rfl
  have hparse := task.parse_words
  by_cases hfits : ∀ n ∈ task.numbers, n < 2 ^ 64
  · rw [if_pos hfits] at hparse ⊢
    simp only [commandLine, main, createHandler, ht, Option.map_some, hkind, hparse, hmode]
  · rw [if_neg hfits] at hparse ⊢
    simp only [commandLine, main, createHandler, ht, Option.map_some, hkind, hparse]

end IpcPerformance
