import IpcPerformance.Handler.DBus

/-! # The bus

The bus is not part of the program. Who owns a name is up to it, and to all the others who use it, who may
do something before every call.

* `BusCall`, `BusReply` — the calls of libdbus, and what they return.
* `BusDaemon.Documented` — what is documented of a bus, as far as it is about one name.
* `nameQueue` — a bus with a queue for the name; others ask for it, too, and connections can be lost. -/

namespace IpcPerformance

/-! ## libdbus -/

/-- A call of libdbus that can fail, or has to do with something that is to be given back. -/
inductive BusCall
  /-- `dbus_bus_get`. -/
  | busGet
  /-- `dbus_bus_request_name`, with `DBUS_NAME_FLAG_REPLACE_EXISTING`. -/
  | requestName
  /-- `dbus_bus_release_name`. -/
  | releaseName
  /-- `dbus_error_free`. -/
  | freeError
  /-- `dbus_connection_flush`. -/
  | flush
  /-- `dbus_connection_unref`. -/
  | unrefConnection
  /-- `dbus_connection_read_write`. -/
  | readWrite (milliseconds : ℕ)
  /-- `dbus_connection_get_dispatch_status`. -/
  | dispatchStatus
  /-- `dbus_message_new_method_call`. -/
  | newMethodCall (path : List Char)
  /-- `dbus_message_set_no_reply`. -/
  | setNoReply
  /-- `dbus_message_iter_append_basic`. -/
  | appendBasic (argument : Argument)
  /-- `dbus_message_iter_open_container`. -/
  | openContainer
  /-- `dbus_message_iter_append_fixed_array`. -/
  | appendBytes (bytes : List UInt8)
  /-- `dbus_message_iter_close_container`. -/
  | closeContainer
  /-- `dbus_connection_send`. -/
  | send
  /-- `dbus_connection_pop_message`. -/
  | popMessage
  /-- `dbus_message_unref`. -/
  | unrefMessage

/-- What a call returns. -/
inductive BusReply
  /-- A connection or not, and an error or not. -/
  | connection (given error : Bool)
  | value (n : ℕ)
  /-- An error. -/
  | failed
  | popped (message : PoppedMessage)

namespace BusReply

/-- Whether there is a connection. -/
def given : BusReply → Bool
  | connection given _ => given
  | _ => false

/-- `dbus_error_is_set` -/
def error : BusReply → Bool
  | connection _ error => error
  | failed => true
  | _ => false

/-- The number that is returned. -/
def status : BusReply → ℤ
  | value n => n
  | _ => -1

/-- The message that is returned. -/
def message : BusReply → PoppedMessage
  | popped message => message
  | _ => .none

end BusReply

namespace BusCall

/-- The calls that are about the name. -/
def AboutName : BusCall → Prop
  | requestName | releaseName => True
  | _ => False

/-- Whether a call can return the reply. A number may be any, also the one that says that there is no
memory. -/
def returns : BusCall → BusReply → Bool
  | busGet, .connection _ _ => true
  | requestName, .failed => true
  | releaseName, .failed => true
  | popMessage, .popped _ => true
  | busGet, _ => false
  | popMessage, _ => false
  | _, .value _ => true
  | _, _ => false

/-- The calls that return a number, and nothing else. -/
def Plain : BusCall → Prop
  | busGet | requestName | releaseName | popMessage => False
  | _ => True

theorem Plain.not_aboutName {c : BusCall} (hc : c.Plain) : ¬ c.AboutName := by
  cases c <;> first | exact id | exact hc.elim

theorem Plain.returns {c : BusCall} (hc : c.Plain) {r : BusReply} (h : c.returns r = true) :
    ∃ n, r = .value n := by
  cases r with
  | value n => exact ⟨n, rfl⟩
  | _ => cases c <;> first | exact hc.elim | cases h

/-- The calls about the name return a number, or they fail. -/
theorem AboutName.returns {c : BusCall} (hc : c.AboutName) {r : BusReply} (h : c.returns r = true) :
    r = .failed ∨ ∃ n, r = .value n := by
  cases r with
  | value n => exact .inr ⟨n, rfl⟩
  | failed => exact .inl rfl
  | _ => cases c <;> first | exact hc.elim | cases h

end BusCall

/-! ## What is documented -/

/-- **A bus**, as far as it is about one name: the processes `Q` have a connection each. -/
structure BusDaemon (Q : Type) where
  /-- The state of the bus, and of all others who use it. -/
  State : Type
  /-- Before anything has happened. -/
  initial : State
  /-- What becomes of it with a call of a process, and with what others do before, if the call can return
  the reply. -/
  answer (q : Q) (s : State) (c : BusCall) (r : BusReply) : Option State
  /-- The process that owns the name, if it is one of them. -/
  owner (s : State) : Option Q
  /-- The process owns the name, or waits for it, or has asked for it and has not been answered. -/
  queued (s : State) (q : Q) : Prop
  /-- The process has lost a connection. -/
  lost (s : State) (q : Q) : Prop

/-- **What is documented of a bus** on which no process lets others take the name away. -/
structure BusDaemon.Documented {Q : Type} (daemon : BusDaemon Q) : Prop where
  /-- No process has asked for the name yet. -/
  initial (q : Q) : ¬ daemon.queued daemon.initial q
  /-- `DBUS_REQUEST_NAME_REPLY_PRIMARY_OWNER`: the caller is the owner now. -/
  primary {q : Q} {s s' : daemon.State} (h : daemon.answer q s .requestName (.value 1) = some s') :
    daemon.owner s' = some q ∨ daemon.lost s' q
  /-- The owner remains the owner, unless it releases the name or loses its connection. -/
  keeps {q q' : Q} {s s' : daemon.State} {c : BusCall} {r : BusReply}
    (h : daemon.answer q s c r = some s') (howner : daemon.owner s = some q')
    (hother : c = .releaseName → q' ≠ q) : daemon.owner s' = some q' ∨ daemon.lost s' q'
  /-- That it has lost one remains true. -/
  lost {q q' : Q} {s s' : daemon.State} {c : BusCall} {r : BusReply}
    (h : daemon.answer q s c r = some s') (hlost : daemon.lost s q') : daemon.lost s' q'
  /-- When `dbus_bus_release_name` returns without an error, the caller is not in the queue. -/
  released {q : Q} {n : ℕ} {s s' : daemon.State}
    (h : daemon.answer q s .releaseName (.value n) = some s') : ¬ daemon.queued s' q
  /-- Nobody gets into it without asking. -/
  absent {q q' : Q} {s s' : daemon.State} {c : BusCall} {r : BusReply}
    (h : daemon.answer q s c r = some s') (hqueued : ¬ daemon.queued s q')
    (hother : c = .requestName → q' ≠ q) : ¬ daemon.queued s' q'

/-! ## A queue for the name -/

variable {Q : Type}

/-- Somebody who asks for the name. -/
inductive Claimant (Q : Type)
  /-- A process. -/
  | process (q : Q)
  /-- Somebody else, who may let others take it away. -/
  | stranger (number : ℕ) (replaceable : Bool)
  deriving DecidableEq

/-- What others do. -/
inductive BusEvent (Q : Type)
  /-- Somebody else asks for the name. -/
  | asks (number : ℕ) (replaceable : Bool)
  /-- Somebody is no longer connected. -/
  | disconnects (c : Claimant Q)

/-- A queue for the name, and what others will do. -/
structure NameQueue (Q : Type) where
  /-- The owner, and behind it those who wait. -/
  owners : List (Claimant Q)
  /-- Those who have lost a connection. -/
  lost : List (Claimant Q)
  /-- What others do before each of the next calls. -/
  script : List (List (BusEvent Q))

namespace NameQueue

/-- The process that owns the name. -/
def owner (s : NameQueue Q) : Option Q :=
  match s.owners with
  | .process q :: _ => some q
  | _ => none

variable [DecidableEq Q]

/-- The queue without somebody. -/
def without (c : Claimant Q) (owners : List (Claimant Q)) : List (Claimant Q) :=
  owners.filter fun c' => c' ≠ c

/-- A process asks for the name: it takes it away from an owner who lets it, or gets in line behind the
owner. -/
def enter (q : Q) : List (Claimant Q) → List (Claimant Q)
  | [] => [.process q]
  | .stranger number true :: waiting =>
      .process q :: .stranger number true :: without (.process q) waiting
  | owner :: waiting =>
      if owner = .process q then owner :: waiting
      else owner :: .process q :: without (.process q) waiting

/-- `DBUS_REQUEST_NAME_REPLY_PRIMARY_OWNER`, `_IN_QUEUE` or `_ALREADY_OWNER`. -/
def nameReply (q : Q) : List (Claimant Q) → ℕ
  | [] => 1
  | .stranger _ true :: _ => 1
  | owner :: _ => if owner = .process q then 4 else 2

/-- Others do something. -/
def happen (s : NameQueue Q) : BusEvent Q → NameQueue Q
  | .asks number replaceable => { s with owners := s.owners ++ [.stranger number replaceable] }
  | .disconnects c => { s with owners := without c s.owners, lost := c :: s.lost }

/-- What is next in the script has happened. -/
def advance (s : NameQueue Q) : NameQueue Q :=
  (s.script.headD []).foldl happen { s with script := s.script.tail }

/-- What a call does, with what others do before; one that fails does nothing. -/
def answer (q : Q) (s : NameQueue Q) (c : BusCall) (r : BusReply) : Option (NameQueue Q) :=
  match c, r with
  | .requestName, .value n =>
      if n = nameReply q s.advance.owners then some { s.advance with owners := enter q s.advance.owners }
      else none
  | .releaseName, .value _ =>
      some { s.advance with owners := without (.process q) s.advance.owners }
  | _, _ => some s.advance

end NameQueue

/-- A bus with a queue for the name. -/
def nameQueue [DecidableEq Q] (script : List (List (BusEvent Q))) : BusDaemon Q where
  State := NameQueue Q
  initial := ⟨[], [], script⟩
  answer := NameQueue.answer
  owner := NameQueue.owner
  queued s q := .process q ∈ s.owners
  lost s q := .process q ∈ s.lost

namespace NameQueue

variable {q q' : Q} {s s' : NameQueue Q} {owners : List (Claimant Q)}

theorem owner_eq_some : s.owner = some q ↔ s.owners.head? = some (.process q) := by
  obtain ⟨owners, lost, script⟩ := s
  cases owners with
  | nil => simp [owner]
  | cons first waiting => cases first <;> simp [owner]

variable [DecidableEq Q]

/-- The owner remains when somebody else goes. -/
theorem head_without {c c' : Claimant Q} (h : owners.head? = some c) (hne : c ≠ c') :
    (without c' owners).head? = some c := by
  cases owners with
  | nil => cases h
  | cons first waiting =>
      cases h
      rw [without, List.filter_cons_of_pos (by simpa using hne)]
      rfl

/-- The owner remains when somebody asks for the name, unless it lets others take it away. -/
theorem head_enter (h : owners.head? = some (.process q')) :
    (enter q owners).head? = some (.process q') := by
  cases owners with
  | nil => cases h
  | cons first waiting =>
      cases h
      rw [enter]
      · split <;> rfl
      · intro number hstranger
        cases hstranger

/-- Nobody else gets into the queue. -/
theorem mem_of_mem_enter {c : Claimant Q} (h : c ∈ enter q owners) : c = .process q ∨ c ∈ owners := by
  have hrest {waiting : List (Claimant Q)} (hc : c ∈ without (.process q) waiting) : c ∈ waiting :=
    List.mem_of_mem_filter hc
  unfold enter at h
  split at h
  · exact .inl (List.mem_singleton.mp h)
  · rcases List.mem_cons.mp h with hc | hc
    · exact .inl hc
    · rcases List.mem_cons.mp hc with hc | hc
      · exact .inr (hc ▸ List.mem_cons_self)
      · exact .inr (List.mem_cons_of_mem _ (hrest hc))
  · split at h
    · exact .inr h
    · rcases List.mem_cons.mp h with hc | hc
      · exact .inr (hc ▸ List.mem_cons_self)
      · exact (List.mem_cons.mp hc).imp id fun hc => List.mem_cons_of_mem _ (hrest hc)

/-- The one who is told to be the primary owner is the owner. -/
theorem head_of_nameReply (h : nameReply q owners = 1) :
    (enter q owners).head? = some (.process q) := by
  unfold nameReply at h
  split at h
  · rfl
  · rfl
  · split at h <;> cases h

/-- **What nobody else can change**: the processes stay where they are, as long as they are connected. -/
structure Undisturbed (s s' : NameQueue Q) : Prop where
  owner (q : Q) (h : s.owner = some q) : s'.owner = some q ∨ .process q ∈ s'.lost
  absent (q : Q) (h : .process q ∉ s.owners) : .process q ∉ s'.owners
  lost (q : Q) (h : .process q ∈ s.lost) : .process q ∈ s'.lost

omit [DecidableEq Q] in
/-- The script does not matter. -/
theorem Undisturbed.of_owners (howners : s'.owners = s.owners) (hlost : s'.lost = s.lost) :
    Undisturbed s s' where
  owner q hq := by
    rw [owner_eq_some] at hq ⊢
    exact .inl (howners ▸ hq)
  absent q hq := howners ▸ hq
  lost q hq := hlost ▸ hq

omit [DecidableEq Q] in
theorem Undisturbed.trans {s'' : NameQueue Q} (h : Undisturbed s s') (h' : Undisturbed s' s'') :
    Undisturbed s s'' where
  owner q hq := by
    rcases h.owner q hq with howner | hlost
    · exact h'.owner q howner
    · exact .inr (h'.lost q hlost)
  absent q hq := h'.absent q (h.absent q hq)
  lost q hq := h'.lost q (h.lost q hq)

theorem undisturbed_happen (s : NameQueue Q) (e : BusEvent Q) : Undisturbed s (s.happen e) := by
  cases e with
  | asks number replaceable =>
      refine ⟨fun q hq => .inl ?_, fun q hq hmem => ?_, fun q hq => hq⟩
      · rw [owner_eq_some] at hq ⊢
        change (s.owners ++ _).head? = _
        rw [List.head?_append, hq]
        rfl
      · exact hq ((List.mem_append.mp hmem).resolve_right (by simp))
  | disconnects c =>
      -- an owner who is gone has lost a connection
      refine ⟨fun q hq => ?_, fun q hq hmem => hq (List.mem_of_mem_filter hmem),
        fun q hq => List.mem_cons_of_mem _ hq⟩
      by_cases hc : .process q = c
      · exact .inr (hc ▸ List.mem_cons_self)
      · rw [owner_eq_some] at hq
        exact .inl (owner_eq_some.mpr (head_without hq hc))

theorem undisturbed_foldl (events : List (BusEvent Q)) (s : NameQueue Q) :
    Undisturbed s (events.foldl happen s) := by
  induction events generalizing s with
  | nil => exact .of_owners rfl rfl
  | cons e events ih => exact (undisturbed_happen s e).trans (ih (s.happen e))

theorem undisturbed_advance (s : NameQueue Q) : Undisturbed s s.advance := by
  have htail : Undisturbed s { s with script := s.script.tail } := .of_owners rfl rfl
  exact htail.trans (undisturbed_foldl _ _)

/-- **What a call does**, after what others have done. -/
theorem answer_cases {c : BusCall} {r : BusReply} (h : s.answer q c r = some s') :
    s' = s.advance ∨
    (c = .requestName ∧ s' = { s.advance with owners := enter q s.advance.owners }) ∨
    (c = .releaseName ∧ s' = { s.advance with owners := without (.process q) s.advance.owners }) := by
  unfold answer at h
  split at h
  · split at h <;> cases h
    exact .inr (.inl ⟨rfl, rfl⟩)
  · cases h
    exact .inr (.inr ⟨rfl, rfl⟩)
  · cases h
    exact .inl rfl

/-- The primary owner is the owner. -/
theorem owner_of_primary (h : s.answer q .requestName (.value 1) = some s') : s'.owner = some q := by
  unfold answer at h
  dsimp only at h
  split at h <;> cases h
  rename_i hn
  exact owner_eq_some.mpr (head_of_nameReply hn.symm)

/-- An owner remains the owner. -/
theorem owner_of_answer {c : BusCall} {r : BusReply} (h : s.answer q c r = some s')
    (howner : s.owner = some q') (hother : c = .releaseName → q' ≠ q) :
    s'.owner = some q' ∨ .process q' ∈ s'.lost := by
  have hadvance := (undisturbed_advance s).owner q' howner
  rcases answer_cases h with rfl | ⟨-, rfl⟩ | ⟨hc, rfl⟩
  · exact hadvance
  · -- a process does not let others take the name away
    exact hadvance.imp_left fun h => owner_eq_some.mpr (head_enter (owner_eq_some.mp h))
  · refine hadvance.imp_left fun h => owner_eq_some.mpr (head_without (owner_eq_some.mp h) ?_)
    exact fun heq => hother hc (Claimant.process.inj heq)

/-- Nobody gets into the queue without asking. -/
theorem notMem_of_answer {c : BusCall} {r : BusReply} (h : s.answer q c r = some s')
    (habsent : .process q' ∉ s.owners) (hother : c = .requestName → q' ≠ q) :
    .process q' ∉ s'.owners := by
  have hadvance := (undisturbed_advance s).absent q' habsent
  rcases answer_cases h with rfl | ⟨hc, rfl⟩ | ⟨-, rfl⟩
  · exact hadvance
  · intro hmem
    rcases mem_of_mem_enter hmem with heq | hmem
    · exact hother hc (Claimant.process.inj heq)
    · exact hadvance hmem
  · exact fun hmem => hadvance (List.mem_of_mem_filter hmem)

/-- **The bus keeps to what is documented**, whatever others do. -/
theorem documented (script : List (List (BusEvent Q))) : (nameQueue script).Documented where
  initial _ := List.not_mem_nil
  primary h := .inl (owner_of_primary h)
  keeps h := owner_of_answer h
  lost {q q' s s' c r} h hlost := by
    have hadvance := (undisturbed_advance s).lost q' hlost
    rcases answer_cases (q := q) (c := c) (r := r) h with rfl | ⟨-, rfl⟩ | ⟨-, rfl⟩ <;> exact hadvance
  released h := by
    cases h
    simp [nameQueue, without]
  absent h := notMem_of_answer h

end NameQueue

end IpcPerformance
